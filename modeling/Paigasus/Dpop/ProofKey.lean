import Paigasus.Core.Authn
import Paigasus.Foundation.Base64
import Paigasus.Foundation.Bytes
import Paigasus.Foundation.Delimited
import Paigasus.Foundation.Json
import Paigasus.Foundation.Transition

/-!
# The key of a DPoP proof

The public key that a proof carries in its header: the check of its members, the
signature under it and its thumbprint.  The thumbprint hashes a text that is put
together from the members as they stand, the signature is checked with the bytes
they decode to; what a member may be makes the two agree.
-/

namespace Paigasus.Dpop

open Foundation Core

/-- The algorithms that the library names. -/
inductive Algorithm where
  | hs256 | hs384 | hs512
  | es256 | es384
  | rs256 | rs384 | rs512
  | ps256 | ps384 | ps512
  | edDsa
deriving DecidableEq

/-- The three parts of a proof, its header and its payload read. -/
structure RawProof where
  signingInput : String
  signature : String
  header : List (String × Json)
  payload : List (String × Json)

inductive PublicJwk where
  | ec (x y : String)
  | rsa (n e : String) (nBytes eBytes : List UInt8)
deriving DecidableEq

def privateJwkMembers : List String :=
  ["d", "p", "q", "dp", "dq", "qi", "oth", "k"]

def minRsaBits : Nat := 2048

def maxRsaBits : Nat := 4096

def maxRsaExponent : Nat := 2 ^ 33 - 1

def member (jwk : List (String × Json)) (name : String) :
    Except ProofDefect String :=
  match (jwk.lookup name).bind Json.asStr with
  | some text => .ok text
  | none => .error .jwk

def strictB64 (engine : Base64Engine) (value : String) :
    Except ProofDefect (List UInt8) :=
  match engine.decode value.toList with
  | some bytes => .ok bytes
  | none => .error .jwk

/-- The exponent as an integer; five bytes leave no room for an overflow. -/
def rsaExponent : List UInt8 → Option Nat
  | [] => none
  | first :: rest =>
      if 5 < (first :: rest).length ∨ first = 0 then none
      else some (beNat (first :: rest))

def leadingZeros (byte : UInt8) : Nat :=
  if byte = 0 then 8 else 7 - byte.toNat.log2

def checkEcJwk (engine : Base64Engine) (jwk : List (String × Json)) :
    Except ProofDefect PublicJwk := do
  let kty ← member jwk "kty"
  if kty ≠ "EC" then .error .jwk else do
  let crv ← member jwk "crv"
  if crv ≠ "P-256" then .error .jwk else do
  let x ← member jwk "x"
  let y ← member jwk "y"
  let xBytes ← strictB64 engine x
  if xBytes.length ≠ 32 then .error .jwk else do
  let yBytes ← strictB64 engine y
  if yBytes.length ≠ 32 then .error .jwk else
  .ok (.ec x y)

def checkRsaJwk (engine : Base64Engine) (jwk : List (String × Json)) :
    Except ProofDefect PublicJwk := do
  let kty ← member jwk "kty"
  if kty ≠ "RSA" then .error .jwk else do
  let n ← member jwk "n"
  let e ← member jwk "e"
  let nBytes ← strictB64 engine n
  let eBytes ← strictB64 engine e
  match nBytes with
  | [] => .error .jwk
  | first :: _ =>
      if first = 0 then .error .jwk else
      let bits := nBytes.length * 8 - leadingZeros first
      if bits < minRsaBits ∨ maxRsaBits < bits then .error .jwk else
      match rsaExponent eBytes with
      | none => .error .jwk
      | some exponent =>
          if exponent < 3 ∨ exponent % 2 = 0 ∨ maxRsaExponent < exponent then
            .error .jwk
          else .ok (.rsa n e nBytes eBytes)

/-- Check 5: a public key of the family of the algorithm. -/
def checkJwk (engine : Base64Engine) (header : List (String × Json))
    (alg : Algorithm) : Except ProofDefect PublicJwk :=
  match (header.lookup "jwk").bind Json.asObject with
  | none => .error .jwk
  | some jwk =>
      if privateJwkMembers.any fun name => (jwk.lookup name).isSome then
        .error .jwk
      else
        match alg with
        | .es256 => checkEcJwk engine jwk
        | .rs256 => checkRsaJwk engine jwk
        | _ => .error .alg

/-- The signature checks of the library, by the keys it makes. -/
structure JoseCrypto where
  Key : Type
  fromEcComponents : String → String → Option Key
  fromRsaRawComponents : List UInt8 → List UInt8 → Key
  verify : String → List UInt8 → Key → Algorithm → Option Bool

namespace PublicJwk

def decodingKey (crypto : JoseCrypto) : PublicJwk → Option crypto.Key
  | .ec x y => crypto.fromEcComponents x y
  | .rsa _ _ nBytes eBytes => some (crypto.fromRsaRawComponents nBytes eBytes)

/-- The text that the thumbprint hashes. -/
def canonical : PublicJwk → String
  | .ec x y =>
      "\x7b\"crv\":\"P-256\",\"kty\":\"EC\",\"x\":\"" ++ x ++ "\",\"y\":\"" ++
        y ++ "\"\x7d"
  | .rsa n e _ _ =>
      "\x7b\"e\":\"" ++ e ++ "\",\"kty\":\"RSA\",\"n\":\"" ++ n ++ "\"\x7d"

end PublicJwk

/-- Check 6. -/
def verifySignature (crypto : JoseCrypto) (raw : RawProof) (key : PublicJwk)
    (alg : Algorithm) : Except ProofDefect Unit :=
  match key.decodingKey crypto with
  | none => .error .signature
  | some decodingKey =>
      match crypto.verify raw.signature (utf8 raw.signingInput) decodingKey
          alg with
      | some true => .ok ()
      | _ => .error .signature

/-- Check 9. -/
def thumbprint (engine : Base64Engine) (sha256 : List UInt8 → List UInt8)
    (key : PublicJwk) : String :=
  String.ofList (engine.encode (sha256 (utf8 key.canonical)))

/-- A public key by its integers. -/
inductive PublicKey where
  | ec (x y : Nat)
  | rsa (modulus exponent : Nat)
deriving DecidableEq

/-- The integers that the members write. -/
def PublicJwk.publicKey? (engine : Base64Engine) :
    PublicJwk → Option PublicKey
  | .ec x y => do
      let xBytes ← engine.decode x.toList
      let yBytes ← engine.decode y.toList
      some (.ec (beNat xBytes) (beNat yBytes))
  | .rsa n e _ _ => do
      let nBytes ← engine.decode n.toList
      let eBytes ← engine.decode e.toList
      some (.rsa (beNat nBytes) (beNat eBytes))

/-- What the checks leave of the members of a key. -/
inductive PublicJwk.Checked (engine : Base64Engine) : PublicJwk → Prop where
  | ec {x y : String} {xBytes yBytes : List UInt8}
      (isX : engine.decode x.toList = some xBytes)
      (isY : engine.decode y.toList = some yBytes)
      (xLength : xBytes.length = 32) (yLength : yBytes.length = 32) :
      Checked engine (.ec x y)
  | rsa {n e : String} {first low : UInt8} {rest more : List UInt8}
      (isN : engine.decode n.toList = some (first :: rest))
      (isE : engine.decode e.toList = some (low :: more))
      (nMinimal : first ≠ 0) (eMinimal : low ≠ 0) :
      Checked engine (.rsa n e (first :: rest) (low :: more))

section Checks

variable {engine : Base64Engine} {jwk header : List (String × Json)}
  {alg : Algorithm} {key : PublicJwk}

theorem strictB64_ok {value : String} {bytes : List UInt8}
    (accepted : strictB64 engine value = .ok bytes) :
    engine.decode value.toList = some bytes := by
  unfold strictB64 at accepted
  split at accepted
  case h_1 decoded =>
    cases accepted
    exact decoded
  case h_2 => cases accepted

theorem rsaExponent_some {bytes : List UInt8} {exponent : Nat}
    (isExponent : rsaExponent bytes = some exponent) :
    ∃ first rest, bytes = first :: rest ∧ first ≠ 0 := by
  cases bytes with
  | nil => cases isExponent
  | cons first rest =>
      simp only [rsaExponent] at isExponent
      split at isExponent
      case isTrue => cases isExponent
      case isFalse fits => exact ⟨first, rest, rfl, fun zero => fits (.inr zero)⟩

theorem ok_of_guard {Error Value : Type} {refuses : Prop} [Decidable refuses]
    {error : Error} {value : Value} {rest : Except Error Value}
    (accepted : (if refuses then .error error else rest) = .ok value) :
    ¬ refuses ∧ rest = .ok value := by
  split at accepted
  case isTrue => cases accepted
  case isFalse passes => exact ⟨passes, accepted⟩

theorem checkEcJwk_ok (accepted : checkEcJwk engine jwk = .ok key) :
    key.Checked engine := by
  obtain ⟨kty, _, accepted⟩ := ok_of_bind accepted
  obtain ⟨_, accepted⟩ := ok_of_guard accepted
  obtain ⟨crv, _, accepted⟩ := ok_of_bind accepted
  obtain ⟨_, accepted⟩ := ok_of_guard accepted
  obtain ⟨x, _, accepted⟩ := ok_of_bind accepted
  obtain ⟨y, _, accepted⟩ := ok_of_bind accepted
  obtain ⟨xBytes, isX, accepted⟩ := ok_of_bind accepted
  obtain ⟨xLength, accepted⟩ := ok_of_guard accepted
  obtain ⟨yBytes, isY, accepted⟩ := ok_of_bind accepted
  obtain ⟨yLength, accepted⟩ := ok_of_guard accepted
  cases accepted
  exact .ec (strictB64_ok isX) (strictB64_ok isY)
    (Decidable.not_not.mp xLength) (Decidable.not_not.mp yLength)

theorem checkRsaJwk_ok (accepted : checkRsaJwk engine jwk = .ok key) :
    key.Checked engine := by
  obtain ⟨kty, _, accepted⟩ := ok_of_bind accepted
  obtain ⟨_, accepted⟩ := ok_of_guard accepted
  obtain ⟨n, _, accepted⟩ := ok_of_bind accepted
  obtain ⟨e, _, accepted⟩ := ok_of_bind accepted
  obtain ⟨nBytes, isN, accepted⟩ := ok_of_bind accepted
  obtain ⟨eBytes, isE, accepted⟩ := ok_of_bind accepted
  cases nBytes with
  | nil => cases accepted
  | cons first rest =>
      obtain ⟨nMinimal, accepted⟩ := ok_of_guard accepted
      obtain ⟨_, accepted⟩ := ok_of_guard accepted
      split at accepted
      case h_1 => cases accepted
      case h_2 exponent isExponent =>
        obtain ⟨_, accepted⟩ := ok_of_guard accepted
        cases accepted
        obtain ⟨low, more, rfl, eMinimal⟩ := rsaExponent_some isExponent
        exact .rsa (strictB64_ok isN) (strictB64_ok isE) nMinimal eMinimal

theorem checkJwk_ok (accepted : checkJwk engine header alg = .ok key) :
    key.Checked engine := by
  unfold checkJwk at accepted
  split at accepted
  case h_1 => cases accepted
  case h_2 jwk _ =>
    obtain ⟨_, accepted⟩ := ok_of_guard accepted
    cases alg with
    | es256 => exact checkEcJwk_ok accepted
    | rs256 => exact checkRsaJwk_ok accepted
    | _ => cases accepted

end Checks

namespace PublicJwk

theorem quoted_toList (opening middle first second : String) :
    (opening ++ first ++ ("\"" ++ middle) ++ second ++ "\"\x7d").toList =
      opening.toList ++ (first.toList ++ '"' :: (middle.toList ++
        (second.toList ++ '"' :: ['\x7d']))) := by
  have quote : ("\"" : String).toList = ['"'] := rfl
  have close : ("\"\x7d" : String).toList = ['"', '\x7d'] := rfl
  simp only [String.toList_append, quote, close, List.append_assoc,
    List.cons_append, List.nil_append]

theorem canonical_ec_toList (x y : String) :
    (PublicJwk.ec x y).canonical.toList =
      "\x7b\"crv\":\"P-256\",\"kty\":\"EC\",\"x\":\"".toList ++
        (x.toList ++ '"' :: (",\"y\":\"".toList ++
          (y.toList ++ '"' :: ['\x7d']))) := by
  rw [← quoted_toList]
  have middle : "\"" ++ ",\"y\":\"" = "\",\"y\":\"" := rfl
  rw [middle]
  rfl

theorem canonical_rsa_toList (n e : String) (nBytes eBytes : List UInt8) :
    (PublicJwk.rsa n e nBytes eBytes).canonical.toList =
      "\x7b\"e\":\"".toList ++
        (e.toList ++ '"' :: (",\"kty\":\"RSA\",\"n\":\"".toList ++
          (n.toList ++ '"' :: ['\x7d']))) := by
  rw [← quoted_toList]
  have middle : "\"" ++ ",\"kty\":\"RSA\",\"n\":\"" =
      "\",\"kty\":\"RSA\",\"n\":\"" := rfl
  rw [middle]
  rfl

/-- A text of two members between fixed parts determines the members. -/
theorem members_eq {opening middle closing first second other last : List Char}
    (firstFree : '"' ∉ first) (secondFree : '"' ∉ second)
    (otherFree : '"' ∉ other) (lastFree : '"' ∉ last)
    (same : opening ++ (first ++ '"' :: (middle ++ (second ++ '"' :: closing))) =
      opening ++ (other ++ '"' :: (middle ++ (last ++ '"' :: closing)))) :
    first = other ∧ second = last := by
  obtain ⟨sameFirst, rest⟩ := field_eq_of_append_eq firstFree otherFree
    (List.append_cancel_left same)
  obtain ⟨sameSecond, _⟩ := field_eq_of_append_eq secondFree lastFree
    (List.append_cancel_left rest)
  exact ⟨sameFirst, sameSecond⟩

theorem canonical_kinds (x y n e : String) (nBytes eBytes : List UInt8) :
    (PublicJwk.ec x y).canonical ≠
      (PublicJwk.rsa n e nBytes eBytes).canonical := by
  intro same
  have ecOpening : ("\x7b\"crv\":\"P-256\",\"kty\":\"EC\",\"x\":\"" :
      String).toList = '\x7b' :: '"' :: 'c' ::
        "rv\":\"P-256\",\"kty\":\"EC\",\"x\":\"".toList := rfl
  have rsaOpening : ("\x7b\"e\":\"" : String).toList =
      '\x7b' :: '"' :: 'e' :: "\":\"".toList := rfl
  have symbols := congrArg String.toList same
  rw [canonical_ec_toList, canonical_rsa_toList, ecOpening, rsaOpening]
    at symbols
  have third := (List.cons.inj (List.cons.inj (List.cons.inj symbols).2).2).1
  exact absurd third (by decide)

end PublicJwk

section Thumbprint

variable {engine : Base64Engine}

theorem not_mem_of_decode (canonical : engine.OnlyCanonical)
    {text : List Char} {bytes : List UInt8}
    (decoded : engine.decode text = some bytes) : '"' ∉ text := by
  intro member
  rw [canonical text bytes decoded] at member
  obtain ⟨bits, isBits⟩ := Base64.bits?_of_mem_encode member
  cases isBits

/-- Texts that decode are the same exactly when their bytes are. -/
theorem text_eq_iff (canonical : engine.OnlyCanonical) {text other : String}
    {bytes otherBytes : List UInt8}
    (decoded : engine.decode text.toList = some bytes)
    (otherDecoded : engine.decode other.toList = some otherBytes) :
    text = other ↔ bytes = otherBytes := by
  constructor
  · rintro rfl
    rw [decoded] at otherDecoded
    exact Option.some.inj otherDecoded
  · rintro rfl
    apply String.toList_inj.mp
    rw [canonical _ _ decoded, canonical _ _ otherDecoded]

/-- The texts of two keys are the same exactly when their integers are. -/
theorem canonical_eq_iff (canonical : engine.OnlyCanonical)
    {key other : PublicJwk}
    (checked : key.Checked engine) (otherChecked : other.Checked engine) :
    key.canonical = other.canonical ↔
      key.publicKey? engine = other.publicKey? engine := by
  cases checked with
  | @ec x y xBytes yBytes isX isY xLength yLength =>
      cases otherChecked with
      | @ec x' y' xBytes' yBytes' isX' isY' xLength' yLength' =>
          simp only [PublicJwk.publicKey?, isX, isY, isX', isY',
            Option.bind_eq_bind, Option.bind_some, Option.some.injEq,
            PublicKey.ec.injEq]
          constructor
          · intro same
            have symbols := congrArg String.toList same
            rw [PublicJwk.canonical_ec_toList, PublicJwk.canonical_ec_toList]
              at symbols
            obtain ⟨sameX, sameY⟩ := PublicJwk.members_eq
              (not_mem_of_decode canonical isX)
              (not_mem_of_decode canonical isY)
              (not_mem_of_decode canonical isX')
              (not_mem_of_decode canonical isY') symbols
            rw [sameX, isX'] at isX
            rw [sameY, isY'] at isY
            cases isX
            cases isY
            exact ⟨rfl, rfl⟩
          · rintro ⟨sameX, sameY⟩
            have isSameX := (text_eq_iff canonical isX isX').mpr
              (beNat_injective (xLength.trans xLength'.symm) sameX)
            have isSameY := (text_eq_iff canonical isY isY').mpr
              (beNat_injective (yLength.trans yLength'.symm) sameY)
            rw [isSameX, isSameY]
      | rsa isN isE =>
          simp [PublicJwk.publicKey?, isX, isY, isN, isE,
            PublicJwk.canonical_kinds]
  | @rsa n e first low rest more isN isE nMinimal eMinimal =>
      cases otherChecked with
      | ec isX isY =>
          simp [PublicJwk.publicKey?, isX, isY, isN, isE,
            (PublicJwk.canonical_kinds _ _ _ _ _ _).symm]
      | @rsa n' e' first' low' rest' more' isN' isE' nMinimal' eMinimal' =>
          simp only [PublicJwk.publicKey?, isN, isE, isN', isE',
            Option.bind_eq_bind, Option.bind_some, Option.some.injEq,
            PublicKey.rsa.injEq]
          constructor
          · intro same
            have symbols := congrArg String.toList same
            rw [PublicJwk.canonical_rsa_toList, PublicJwk.canonical_rsa_toList]
              at symbols
            obtain ⟨sameE, sameN⟩ := PublicJwk.members_eq
              (not_mem_of_decode canonical isE)
              (not_mem_of_decode canonical isN)
              (not_mem_of_decode canonical isE')
              (not_mem_of_decode canonical isN') symbols
            rw [sameN, isN'] at isN
            rw [sameE, isE'] at isE
            cases isN
            cases isE
            exact ⟨rfl, rfl⟩
          · rintro ⟨sameN, sameE⟩
            have isSameN := (text_eq_iff canonical isN isN').mpr
              (beNat_injective_of_minimal nMinimal nMinimal' sameN)
            have isSameE := (text_eq_iff canonical isE isE').mpr
              (beNat_injective_of_minimal eMinimal eMinimal' sameE)
            subst isSameN isSameE
            rfl

/-- Where the hash does not collide, the thumbprint is that of one key only. -/
theorem thumbprint_eq_iff (canonical : engine.OnlyCanonical)
    {sha256 : List UInt8 → List UInt8} {key other : PublicJwk}
    (noCollision : sha256 (utf8 key.canonical) =
      sha256 (utf8 other.canonical) →
        utf8 key.canonical = utf8 other.canonical)
    (checked : key.Checked engine) (otherChecked : other.Checked engine) :
    thumbprint engine sha256 key = thumbprint engine sha256 other ↔
      key.publicKey? engine = other.publicKey? engine := by
  rw [← canonical_eq_iff canonical checked otherChecked]
  constructor
  · intro same
    have encoded := congrArg engine.decode (String.ofList_injective same)
    rw [engine.decode_encode, engine.decode_encode] at encoded
    exact utf8_injective (noCollision (Option.some.inj encoded))
  · intro same
    rw [thumbprint, thumbprint, same]

/-- What the library documents about the keys it makes, by the public key that
each of them holds. -/
structure JoseCrypto.Holds (crypto : JoseCrypto) (engine : Base64Engine)
    (publicKey : crypto.Key → PublicKey) : Prop where
  ec : ∀ x y xBytes yBytes, engine.decode x.toList = some xBytes →
    engine.decode y.toList = some yBytes → xBytes.length = 32 →
    yBytes.length = 32 → ∃ key, crypto.fromEcComponents x y = some key ∧
      publicKey key = .ec (beNat xBytes) (beNat yBytes)
  rsa : ∀ nBytes eBytes, publicKey (crypto.fromRsaRawComponents nBytes eBytes) =
    .rsa (beNat nBytes) (beNat eBytes)

/-- The key that the signature is checked with holds the integers of the
members. -/
theorem decodingKey_holds {crypto : JoseCrypto}
    {publicKey : crypto.Key → PublicKey} (holds : crypto.Holds engine publicKey)
    {key : PublicJwk} (checked : key.Checked engine) :
    ∃ used, key.decodingKey crypto = some used ∧
      key.publicKey? engine = some (publicKey used) := by
  cases checked with
  | ec isX isY xLength yLength =>
      obtain ⟨used, made, holdsInts⟩ := holds.ec _ _ _ _ isX isY xLength yLength
      refine ⟨used, made, ?_⟩
      simp [PublicJwk.publicKey?, isX, isY, holdsInts]
  | rsa isN isE _ _ =>
      refine ⟨_, rfl, ?_⟩
      simp [PublicJwk.publicKey?, isN, isE, holds.rsa]

end Thumbprint

/-- Two accepted keys have the same text to hash exactly when they are of one
type with the same integers; and the signature is checked with the key that has
the integers of the hashed text. -/
theorem one_thumbprint (engine : Base64Engine)
    (canonical : engine.OnlyCanonical) (crypto : JoseCrypto)
    (publicKey : crypto.Key → PublicKey) (holds : crypto.Holds engine publicKey)
    (header other : List (String × Json)) (alg otherAlg : Algorithm)
    (key otherKey : PublicJwk) (accepted : checkJwk engine header alg = .ok key)
    (otherAccepted : checkJwk engine other otherAlg = .ok otherKey) :
    (key.canonical = otherKey.canonical ↔
        key.publicKey? engine = otherKey.publicKey? engine) ∧
      ∃ used, key.publicKey? engine = some (publicKey used) ∧
        ∀ raw, verifySignature crypto raw key alg =
          if crypto.verify raw.signature (utf8 raw.signingInput) used alg =
              some true then .ok ()
          else .error .signature := by
  have checked := checkJwk_ok accepted
  refine ⟨canonical_eq_iff canonical checked (checkJwk_ok otherAccepted), ?_⟩
  obtain ⟨used, made, holdsInts⟩ := decodingKey_holds holds checked
  refine ⟨used, holdsInts, ?_⟩
  intro raw
  rw [verifySignature, made]
  dsimp only
  split
  case h_1 verified => rw [if_pos verified]
  case h_2 refused => rw [if_neg (fun verified => refused verified)]

/-- The library, with the public keys themselves for its keys. -/
def sampleCrypto : JoseCrypto where
  Key := PublicKey
  fromEcComponents x y := (PublicJwk.ec x y).publicKey? Base64.urlSafeNoPad
  fromRsaRawComponents nBytes eBytes := .rsa (beNat nBytes) (beNat eBytes)
  verify _ _ _ _ := some true

def sampleCoordinate (byte : UInt8) : String :=
  String.ofList (Base64.encode (List.replicate 32 byte))

def sampleHeader (y : UInt8) : List (String × Json) :=
  [("jwk", .object [("kty", .string "EC"), ("crv", .string "P-256"),
    ("x", .string (sampleCoordinate 1)), ("y", .string (sampleCoordinate y))])]

theorem decode_sampleCoordinate (byte : UInt8) :
    Base64.urlSafeNoPad.decode (sampleCoordinate byte).toList =
      some (List.replicate 32 byte) := by
  rw [sampleCoordinate, String.toList_ofList]
  exact Base64.decode_encode _

theorem checkJwk_sampleHeader (y : UInt8) :
    checkJwk Base64.urlSafeNoPad (sampleHeader y) .es256 =
      .ok (.ec (sampleCoordinate 1) (sampleCoordinate y)) := by
  simp [checkJwk, checkEcJwk, sampleHeader, privateJwkMembers, member,
    strictB64, decode_sampleCoordinate, List.lookup_cons, List.lookup_nil,
    Json.asObject, Json.asStr, bind, Except.bind]

theorem sampleCrypto_holds :
    sampleCrypto.Holds Base64.urlSafeNoPad id where
  ec x y xBytes yBytes isX isY _ _ := by
    refine ⟨_, ?_, rfl⟩
    simp [sampleCrypto, PublicJwk.publicKey?, isX, isY]
  rsa _ _ := rfl

theorem one_thumbprint_sample :
    (PublicJwk.ec (sampleCoordinate 1) (sampleCoordinate 2)).canonical ≠
      (PublicJwk.ec (sampleCoordinate 1) (sampleCoordinate 3)).canonical := by
  have told := one_thumbprint Base64.urlSafeNoPad
    Base64.urlSafeNoPad_onlyCanonical sampleCrypto id sampleCrypto_holds
    (sampleHeader 2) (sampleHeader 3) .es256 .es256 _ _
    (checkJwk_sampleHeader 2) (checkJwk_sampleHeader 3)
  intro same
  have sameKey := told.1.mp same
  revert sameKey
  simp only [PublicJwk.publicKey?, decode_sampleCoordinate]
  decide

end Paigasus.Dpop
