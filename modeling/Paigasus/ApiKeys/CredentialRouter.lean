import Paigasus.ApiKeys.RequestHeaders
import Paigasus.ApiKeys.Token
import Paigasus.Config.IamConfig
import Paigasus.Foundation.Base64Prefix
import Paigasus.Foundation.Bytes
import Paigasus.Foundation.Delimited
import Paigasus.Foundation.JsonGrammar

/-!
# The credential router

A bearer token that begins with the configured key prefix is an API key, and
every other one is a token of an identity provider.  The router loses an API key
where no header can carry the prefix as it is; it takes a token of a provider
where the prefix spells the beginning of a token header.
-/

namespace Paigasus.ApiKeys

open Foundation Core Config

structure RouterState where
  apiKeyPrefix : String
  dpopEnabled : Bool

/-- Where a request goes; `followUp` is the one that a proof accompanies. -/
inductive Admission where
  | exempt
  | apiKey (token : String)
  | oidc (token : String)
  | followUp (token proof : String)
  | rejected (error : AuthnError)
deriving DecidableEq

def isExempt (path : String) : Bool :=
  "/grpc.health.v1.Health/".toList.isPrefixOf path.toList ||
    path = "/paigasus.iam.v1.AuthnService/Introspect" ||
    path = "/paigasus.iam.v1.AuthnService/IntrospectApiKey"

def isAuthorizedPath : String :=
  "/paigasus.iam.v1.AuthorizationService/IsAuthorized"

/-- The prefix test. -/
def routesToApiKey (keyPrefix token : String) : Bool :=
  keyPrefix.toList.isPrefixOf token.toList

/-- `AuthEnforce::call`, up to the resolution of the token. -/
def RouterState.call (state : RouterState) (request : RoutedRequest) :
    Admission :=
  if isExempt request.path then
    .exempt
  else
    match bearerFromHeaders request with
    | some token =>
        if routesToApiKey state.apiKeyPrefix token then .apiKey token
        else .oidc token
    | none =>
        if state.dpopEnabled && request.path = isAuthorizedPath then
          match dpopTokenFromHeaders request with
          | none => .rejected (.invalidToken .malformed)
          | some token =>
              match dpopProofFromHeaders request with
              | .ok proof => .followUp token proof
              | .error defect => .rejected (.invalidDpopProof defect)
        else
          .rejected (.invalidToken .malformed)

/-- The bytes are the text of a JSON object. -/
def SpellsObject (bytes : List UInt8) : Prop :=
  ∃ text fields, bytes = utf8 text ∧
    JsonGrammar.IsText text.toList (.object fields)

/-- Three base64 parts, the first of them a JSON object. -/
def IsCompactToken (token : String) : Prop :=
  ∃ header payload signature, SpellsObject header ∧
    token.toList = Base64.encode header ++ '.' ::
      (Base64.encode payload ++ '.' :: Base64.encode signature)

/-- The characters may begin the last part of a token. -/
def isAlphabet (text : List Char) : Bool :=
  text.all fun char => (Base64.bits? char).isSome

/-- A key prefix spells the beginning of a token: its part before the first dot
spells a JSON object, or the beginning of one where there is no dot. -/
def SpellsToken (keyPrefix : List Char) : Prop :=
  match splitFirst '.' keyPrefix with
  | none => Base64.Begins SpellsObject keyPrefix
  | some (header, rest) =>
      (∃ bytes, Base64.decode header = some bytes ∧ SpellsObject bytes) ∧
        match splitFirst '.' rest with
        | none => isAlphabet rest = true
        | some (payload, signature) =>
            (Base64.decode payload).isSome ∧ isAlphabet signature = true

theorem not_mem_encode {separator : Char}
    (foreign : Base64.bits? separator = none) (bytes : List UInt8) :
    separator ∉ Base64.encode bytes := by
  intro member
  obtain ⟨bits, found⟩ := Base64.bits?_of_mem_encode member
  rw [foreign] at found
  cases found

theorem isAlphabet_of_prefix {text : List Char} {bytes : List UInt8}
    (begins : text <+: Base64.encode bytes) : isAlphabet text = true := by
  apply List.all_eq_true.mpr
  intro char member
  obtain ⟨bits, found⟩ := Base64.bits?_of_mem_encode (begins.subset member)
  simp [found]

theorem prefix_of_isAlphabet {text : List Char}
    (alphabet : isAlphabet text = true) :
    ∃ bytes, text <+: Base64.encode bytes :=
  Base64.begins_of_alphabet (List.all_eq_true.mp alphabet)

theorem exists_token (header payload signature : List UInt8)
    (isObject : SpellsObject header) : ∃ token, IsCompactToken token ∧
      token.toList = Base64.encode header ++ '.' ::
        (Base64.encode payload ++ '.' :: Base64.encode signature) := by
  have text : (String.ofList (Base64.encode header ++ '.' ::
      (Base64.encode payload ++ '.' :: Base64.encode signature))).toList =
      Base64.encode header ++ '.' ::
        (Base64.encode payload ++ '.' :: Base64.encode signature) :=
    String.toList_ofList
  exact ⟨_, ⟨header, payload, signature, isObject, text⟩, text⟩

/-- A prefix begins a token exactly where it spells the beginning of one. -/
theorem spellsToken_iff (keyPrefix : String) :
    SpellsToken keyPrefix.toList ↔
      ∃ token, IsCompactToken token ∧ routesToApiKey keyPrefix token = true := by
  have dotFree : ∀ bytes, '.' ∉ Base64.encode bytes := not_mem_encode rfl
  have routes : ∀ token, routesToApiKey keyPrefix token = true ↔
      keyPrefix.toList <+: token.toList := fun token =>
    List.isPrefixOf_iff_prefix
  unfold SpellsToken
  split
  case h_1 undotted =>
    have free := splitFirst_none undotted
    rw [Base64.begins_iff]
    constructor
    · rintro ⟨header, isObject, begins⟩
      obtain ⟨token, isToken, text⟩ := exists_token header [] [] isObject
      refine ⟨token, isToken, (routes token).mpr ?_⟩
      rw [text]
      exact begins.trans (List.prefix_append _ _)
    · rintro ⟨token, ⟨header, payload, signature, isObject, text⟩, routed⟩
      have begins := (routes token).mp routed
      rw [text] at begins
      exact ⟨header, isObject, prefix_field free begins⟩
  case h_2 first rest dotted =>
    obtain ⟨isPrefix, firstFree⟩ := splitFirst_some dotted
    rw [isPrefix] at routes
    split
    case h_1 undotted =>
      have restFree := splitFirst_none undotted
      constructor
      · rintro ⟨⟨header, decoded, isObject⟩, alphabet⟩
        obtain ⟨payload, begins⟩ := prefix_of_isAlphabet alphabet
        obtain ⟨token, isToken, text⟩ := exists_token header payload [] isObject
        refine ⟨token, isToken, (routes token).mpr ?_⟩
        rw [text, Base64.encode_of_decode decoded,
          List.prefix_append_right_inj, List.cons_prefix_cons]
        exact ⟨rfl, begins.trans (List.prefix_append _ _)⟩
      · rintro ⟨token, ⟨header, payload, signature, isObject, text⟩, routed⟩
        have begins := (routes token).mp routed
        rw [text] at begins
        obtain ⟨same, later⟩ :=
          prefix_fields firstFree (dotFree header) begins
        refine ⟨⟨header, ?_, isObject⟩, ?_⟩
        · rw [same, Base64.decode_encode]
        · exact isAlphabet_of_prefix (prefix_field restFree later)
    case h_2 second third twice =>
      obtain ⟨isRest, secondFree⟩ := splitFirst_some twice
      rw [isRest] at routes
      constructor
      · rintro ⟨⟨header, decoded, isObject⟩, decodes, alphabet⟩
        obtain ⟨payload, isPayload⟩ := Option.isSome_iff_exists.mp decodes
        obtain ⟨signature, begins⟩ := prefix_of_isAlphabet alphabet
        obtain ⟨token, isToken, text⟩ :=
          exists_token header payload signature isObject
        refine ⟨token, isToken, (routes token).mpr ?_⟩
        rw [text, Base64.encode_of_decode decoded,
          Base64.encode_of_decode isPayload, List.prefix_append_right_inj,
          List.cons_prefix_cons, List.prefix_append_right_inj,
          List.cons_prefix_cons]
        exact ⟨rfl, rfl, begins⟩
      · rintro ⟨token, ⟨header, payload, signature, isObject, text⟩, routed⟩
        have begins := (routes token).mp routed
        rw [text] at begins
        obtain ⟨sameHeader, later⟩ :=
          prefix_fields firstFree (dotFree header) begins
        obtain ⟨samePayload, last⟩ :=
          prefix_fields secondFree (dotFree payload) later
        refine ⟨⟨header, ?_, isObject⟩, ?_, ?_⟩
        · rw [sameHeader, Base64.decode_encode]
        · rw [samePayload, Base64.decode_encode]
          rfl
        · exact isAlphabet_of_prefix last

/-- The first characters of the blanks and of the brace that may begin the text
of an object. -/
def headerStarts : List Char := ['C', 'D', 'I', 'e']

theorem SpellsObject.exists_first {bytes : List UInt8}
    (isObject : SpellsObject bytes) : ∃ first rest, bytes = first :: rest ∧
      first.toNat ∈ [9, 10, 13, 32, 123] := by
  obtain ⟨text, fields, rfl, lead, inner, trail, isText, isLead, isValue, _⟩ :=
    isObject
  obtain ⟨body, rfl⟩ := isValue.exists_braces
  unfold utf8
  rw [isText]
  cases lead with
  | nil => exact ⟨123, _, rfl, by decide⟩
  | cons blank blanks =>
      have isBlank := isLead blank List.mem_cons_self
      simp only [JsonText.isSpace, Bool.or_eq_true, decide_eq_true_eq]
        at isBlank
      rcases isBlank with ((rfl | rfl) | rfl) | rfl
      · exact ⟨32, _, rfl, by decide⟩
      · exact ⟨9, _, rfl, by decide⟩
      · exact ⟨10, _, rfl, by decide⟩
      · exact ⟨13, _, rfl, by decide⟩

theorem encode_cons_first (first : UInt8) (rest : List UInt8) : ∃ more,
    Base64.encode (first :: rest) =
      Base64.sextet (first.toNat / 4) :: more := by
  match rest with
  | [] => exact ⟨_, rfl⟩
  | [_] => exact ⟨_, rfl⟩
  | _ :: _ :: _ => exact ⟨_, rfl⟩

/-- A prefix with another first character spells no token. -/
theorem not_spellsToken_of_first {keyPrefix : String} {first : Char}
    {rest : List Char} (starts : keyPrefix.toList = first :: rest)
    (other : first ∉ headerStarts) : ¬ SpellsToken keyPrefix.toList := by
  rw [spellsToken_iff]
  rintro ⟨token, ⟨header, payload, signature, isObject, text⟩, routed⟩
  have begins : keyPrefix.toList <+: token.toList :=
    List.isPrefixOf_iff_prefix.mp routed
  obtain ⟨byte, bytes, isHeader, isFirst⟩ := isObject.exists_first
  obtain ⟨more, written⟩ := encode_cons_first byte bytes
  rw [text, isHeader, written, starts] at begins
  have same := (List.cons_prefix_cons.mp begins).1
  rw [same] at other
  simp only [List.mem_cons, List.not_mem_nil, or_false] at isFirst
  rcases isFirst with isByte | isByte | isByte | isByte | isByte <;>
    exact other (by rw [isByte]; decide)

theorem utf8ByteSize_of_single {text : List Char}
    (single : ∀ char ∈ text, char.utf8Size = 1) :
    (String.ofList text).utf8ByteSize = text.length := by
  induction text with
  | nil => rfl
  | cons char rest ih =>
      have later := ih fun other member =>
        single other (List.mem_cons_of_mem _ member)
      rw [String.ofList_cons, String.utf8ByteSize_append,
        String.utf8ByteSize_singleton, later, single char List.mem_cons_self,
        List.length_cons]
      omega

theorem utf8Size_of_bits {char : Char} {bits : Nat}
    (found : Base64.bits? char = some bits) : char.utf8Size = 1 := by
  obtain ⟨small, rfl⟩ := Base64.bits?_spec found
  interval_cases bits <;> rfl

/-- The length of a token with a secret of 32 bytes. -/
theorem utf8ByteSize_formatToken (config : ApiKeyConfig) (keyId : Uuid)
    {secret : List UInt8} (size : secret.length = 32) :
    (formatToken Base64.urlSafeNoPad config.keyPrefix keyId
      secret).utf8ByteSize = config.minMaxTokenBytes := by
  have idSize : (String.ofList keyId.simple).utf8ByteSize = 32 := by
    rw [utf8ByteSize_of_single, Uuid.simple, Uuid.hexDigits_length]
    intro char member
    apply Uuid.utf8Size_of_hex
    cases isHex : Uuid.hexValue? char with
    | some _ => rfl
    | none => exact absurd member (Uuid.not_mem_hexDigits isHex 32 _)
  have secretSize : (String.ofList (Base64.encode secret)).utf8ByteSize =
      43 := by
    rw [utf8ByteSize_of_single, Base64.length_encode, size]
    intro char member
    obtain ⟨bits, found⟩ := Base64.bits?_of_mem_encode member
    exact utf8Size_of_bits found
  have underscore : "_".utf8ByteSize = 1 := rfl
  unfold formatToken ApiKeyConfig.minMaxTokenBytes fixedTokenBytes
  rw [String.utf8ByteSize_append, String.utf8ByteSize_append,
    String.utf8ByteSize_append, idSize, underscore]
  change _ + (String.ofList (Base64.encode secret)).utf8ByteSize = _
  rw [secretSize]

section Routing

variable {state : RouterState} {request : RoutedRequest} {token : String}

/-- Where a request goes that presents a token without blanks around it. -/
theorem RouterState.call_of_presents
    (enforced : isExempt request.path = false)
    (presented : request.Presents token)
    (plain : token.toList.all isHeaderChar = true)
    (trimmed : trim token.toList = token.toList)
    (present : token.toList ≠ []) :
    state.call request =
      if routesToApiKey state.apiKeyPrefix token then .apiKey token
      else .oidc token := by
  have read : bearerFromHeaders request = some token := by
    rw [bearerFromHeaders_of_presents presented, plain, trimmed,
      String.ofList_toList]
    simp only [Bool.true_and, decide_eq_true_eq, if_pos present]
  rw [RouterState.call, enforced, read]
  rfl

theorem RouterState.read_of_call {found : String}
    (routed : state.call request = .apiKey found) :
    bearerFromHeaders request = some found := by
  unfold RouterState.call at routed
  split at routed
  case isTrue => cases routed
  case isFalse =>
    split at routed
    case h_1 token read =>
      split at routed
      case isTrue =>
        cases routed
        exact read
      case isFalse => cases routed
    case h_2 =>
      split at routed
      case isTrue =>
        split at routed
        case h_1 => cases routed
        case h_2 => split at routed <;> cases routed
      case isFalse => cases routed

/-- A token that goes to the API keys as it is stands in the header as it is. -/
theorem plain_of_call (presented : request.Presents token)
    (routed : state.call request = .apiKey token) :
    token.toList.all isHeaderChar = true ∧
      trim token.toList = token.toList := by
  have read := RouterState.read_of_call routed
  rw [bearerFromHeaders_of_presents presented] at read
  split at read
  case isTrue fits =>
    have same := congrArg String.toList (Option.some.inj read)
    rw [String.toList_ofList] at same
    exact ⟨(Bool.and_eq_true_iff.mp fits).1, same⟩
  case isFalse => cases read

end Routing

/-- A header carries what begins so: visible characters, blanks and tabs, with
neither a blank nor a tab in front. -/
def IsCarried (keyPrefix : List Char) : Prop :=
  keyPrefix.all isHeaderChar = true ∧
    ∀ first ∈ keyPrefix.head?, isBlank first = false

theorem isHeaderChar_of_bits {char : Char} {bits : Nat}
    (found : Base64.bits? char = some bits) :
    isHeaderChar char = true ∧ isBlank char = false := by
  obtain ⟨small, rfl⟩ := Base64.bits?_spec found
  interval_cases bits <;> exact ⟨rfl, rfl⟩

theorem isHeaderChar_of_encode (bytes : List UInt8) :
    (Base64.encode bytes).all isHeaderChar = true := by
  apply List.all_eq_true.mpr
  intro char member
  obtain ⟨bits, found⟩ := Base64.bits?_of_mem_encode member
  exact (isHeaderChar_of_bits found).1

theorem not_isBlank_of_encode {bytes : List UInt8} {char : Char}
    (member : char ∈ Base64.encode bytes) : isBlank char = false := by
  obtain ⟨bits, found⟩ := Base64.bits?_of_mem_encode member
  exact (isHeaderChar_of_bits found).2

theorem isHeaderChar_of_simple (keyId : Uuid) :
    keyId.simple.all isHeaderChar = true := by
  apply List.all_eq_true.mpr
  intro char member
  by_contra foreign
  refine Uuid.not_mem_hexDigits ?_ 32 _ member
  have other : ¬(32 ≤ char.toNat ∧ char.toNat < 127 ∨ char.toNat = 9) :=
    fun found => foreign (isHeaderChar_iff.mpr found)
  rw [Uuid.hexValue?, if_neg (by omega), if_neg (by omega), if_neg (by omega)]

/-- An issued key is carried exactly where its prefix is. -/
theorem carried_formatToken {keyPrefix : String} (present : keyPrefix ≠ "")
    (keyId : Uuid) {secret : List UInt8} (nonempty : secret ≠ []) :
    let token := formatToken Base64.urlSafeNoPad keyPrefix keyId secret
    (token.toList.all isHeaderChar = true ∧
        trim token.toList = token.toList) ↔
      IsCarried keyPrefix.toList := by
  intro token
  have text : token.toList = keyPrefix.toList ++
      (keyId.simple ++ '_' :: Base64.encode secret) := toList_formatToken ..
  obtain ⟨first, rest, begins⟩ : ∃ first rest,
      keyPrefix.toList = first :: rest := by
    apply List.exists_cons_of_ne_nil
    intro empty
    exact present (String.toList_inj.mp empty)
  have head : token.toList.head? = keyPrefix.toList.head? := by
    rw [text, begins]
    rfl
  constructor
  · rintro ⟨plain, trimmed⟩
    refine ⟨?_, ?_⟩
    · rw [text, List.all_append, Bool.and_eq_true] at plain
      exact plain.1
    · rw [← head]
      exact first_of_trim trimmed
  · rintro ⟨plain, unblank⟩
    refine ⟨?_, trim_eq_self ?_ ?_⟩
    · rw [text, List.all_append, List.all_append, List.all_cons, plain,
        isHeaderChar_of_simple, isHeaderChar_of_encode]
      rfl
    · rw [head]
      exact unblank
    · intro last isLast
      have encoded : Base64.encode secret ≠ [] := by
        intro empty
        have decoded := Base64.decode_encode secret
        rw [empty] at decoded
        exact nonempty (Option.some.inj decoded).symm
      have shape : token.toList =
          (keyPrefix.toList ++ (keyId.simple ++ ['_'])) ++
            Base64.encode secret := by
        rw [text]
        simp
      rw [shape, List.getLast?_append_of_ne_nil _ encoded] at isLast
      exact not_isBlank_of_encode (List.mem_of_getLast? isLast)

/-- A compact token is carried. -/
theorem IsCompactToken.carried {token : String} (isToken : IsCompactToken token) :
    token.toList.all isHeaderChar = true ∧ trim token.toList = token.toList ∧
      token.toList ≠ [] := by
  obtain ⟨header, payload, signature, isObject, text⟩ := isToken
  have dot : isHeaderChar '.' = true ∧ isBlank '.' = false := by decide
  have unblank : ∀ char ∈ token.toList, isBlank char = false := by
    intro char member
    rw [text] at member
    rcases List.mem_append.mp member with inHeader | member
    · exact not_isBlank_of_encode inHeader
    · rcases List.mem_cons.mp member with rfl | member
      · exact dot.2
      · rcases List.mem_append.mp member with inPayload | member
        · exact not_isBlank_of_encode inPayload
        · rcases List.mem_cons.mp member with rfl | inSignature
          · exact dot.2
          · exact not_isBlank_of_encode inSignature
  refine ⟨?_, trim_eq_self ?_ ?_, ?_⟩
  · rw [text]
    simp only [List.all_append, List.all_cons, isHeaderChar_of_encode, dot.1,
      Bool.and_self]
  · intro char isFirst
    exact unblank char (List.mem_of_head? isFirst)
  · intro char isLast
    exact unblank char (List.mem_of_getLast? isLast)
  · rw [text]
    simp

/-- The router diverts no token of either kind, whatever request presents it. -/
structure RoutesRightly (config : ApiKeyConfig) : Prop where
  issued : ∀ (keyId : Uuid) (secret : Vector UInt8 32) (dpopEnabled : Bool)
    (request : RoutedRequest), isExempt request.path = false →
      let token := formatToken Base64.urlSafeNoPad config.keyPrefix keyId
        secret.toList
      request.Presents token →
        RouterState.call ⟨config.keyPrefix, dpopEnabled⟩ request =
            .apiKey token ∧
          parseToken Base64.urlSafeNoPad config.keyPrefix token
            config.maxTokenBytes = .ok { keyId, secret := secret.toList }
  bearer : ∀ (token : String) (dpopEnabled : Bool) (request : RoutedRequest),
    IsCompactToken token → isExempt request.path = false →
      request.Presents token →
        RouterState.call ⟨config.keyPrefix, dpopEnabled⟩ request = .oidc token

/-- A request that presents the token. -/
def presenting (token : String) : RoutedRequest where
  path := "/paigasus.iam.v1.AuthnService/WhoAmI"
  authorization := some (utf8 ("bearer" ++ " " ++ token))
  dpop := []

theorem presenting_presents (token : String) :
    isExempt (presenting token).path = false ∧
      (presenting token).Presents token := by
  have enforced : isExempt "/paigasus.iam.v1.AuthnService/WhoAmI" = false := by
    decide
  exact ⟨enforced, "bearer", by decide, rfl⟩

theorem RoutesRightly.carried {config : ApiKeyConfig}
    (right : RoutesRightly config) (nonempty : config.keyPrefix ≠ "") :
    IsCarried config.keyPrefix.toList := by
  let secret : Vector UInt8 32 := Vector.replicate 32 0
  obtain ⟨enforced, presented⟩ := presenting_presents
    (formatToken Base64.urlSafeNoPad config.keyPrefix 0 secret.toList)
  have routed := (right.issued 0 secret false _ enforced presented).1
  exact (carried_formatToken nonempty 0 (by decide)).mp
    (plain_of_call presented routed)

theorem IsCompactToken.call {token keyPrefix : String}
    (isToken : IsCompactToken token) {request : RoutedRequest}
    (enforced : isExempt request.path = false)
    (presented : request.Presents token) (dpopEnabled : Bool) :
    RouterState.call ⟨keyPrefix, dpopEnabled⟩ request =
      if routesToApiKey keyPrefix token then .apiKey token
      else .oidc token := by
  obtain ⟨plain, trimmed, present⟩ := isToken.carried
  rw [RouterState.call_of_presents enforced presented plain trimmed present]

theorem RoutesRightly.apart {config : ApiKeyConfig}
    (right : RoutesRightly config) {token : String}
    (isToken : IsCompactToken token) :
    routesToApiKey config.keyPrefix token = false := by
  obtain ⟨enforced, presented⟩ := presenting_presents token
  have apart := right.bearer token false _ isToken enforced presented
  rw [isToken.call enforced presented] at apart
  cases routed : routesToApiKey config.keyPrefix token with
  | false => rfl
  | true =>
      rw [routed, if_pos rfl] at apart
      cases apart

theorem routesRightly_of_apart {config : ApiKeyConfig}
    (accepted : config.Accepted) (carried : IsCarried config.keyPrefix.toList)
    (apart : ∀ token, IsCompactToken token →
      routesToApiKey config.keyPrefix token = false) :
    RoutesRightly config := by
  refine ⟨?_, ?_⟩
  · intro keyId secret dpopEnabled request enforced token presented
    have size : secret.toList.length = 32 := by simp
    have nonempty : secret.toList ≠ [] := by
      intro empty
      rw [empty] at size
      cases size
    obtain ⟨plain, trimmed⟩ :=
      (carried_formatToken accepted.nonempty keyId nonempty).mpr carried
    have begins : config.keyPrefix.toList <+: token.toList := by
      rw [toList_formatToken]
      exact List.prefix_append _ _
    have present : token.toList ≠ [] := by
      intro empty
      rw [empty, List.prefix_nil] at begins
      exact accepted.nonempty (String.toList_inj.mp begins)
    refine ⟨?_, ?_⟩
    · rw [RouterState.call_of_presents enforced presented plain trimmed present]
      exact if_pos (List.isPrefixOf_iff_prefix.mpr begins)
    · apply parseToken_formatToken
      rw [utf8ByteSize_formatToken _ _ size]
      exact accepted.room
  · intro token dpopEnabled request isToken enforced presented
    rw [isToken.call enforced presented, apart token isToken]
    rfl

/-- Under accepted settings the router diverts no token exactly where a header
carries the key prefix as it is and the prefix does not spell the beginning of a
token of a provider. -/
theorem routesRightly_iff {decodeStandard : String → Option (List UInt8)}
    {config : IamConfig} (valid : config.validate decodeStandard = .ok ()) :
    RoutesRightly config.apiKeys ↔
      IsCarried config.apiKeys.keyPrefix.toList ∧
        ¬ SpellsToken config.apiKeys.keyPrefix.toList := by
  obtain ⟨accepted, _⟩ := IamConfig.accepted_of_validate valid
  rw [spellsToken_iff]
  constructor
  · intro right
    refine ⟨right.carried accepted.nonempty, ?_⟩
    rintro ⟨token, isToken, routed⟩
    rw [right.apart isToken] at routed
    cases routed
  · rintro ⟨carried, apart⟩
    apply routesRightly_of_apart accepted carried
    intro token isToken
    cases routed : routesToApiKey config.apiKeys.keyPrefix token with
    | false => rfl
    | true => exact absurd ⟨token, isToken, routed⟩ apart

/-- Settings with a prefix, as far as they are checked. -/
def configWith (keyPrefix : String) : IamConfig where
  apiKeys :=
    { pepper := ""
      keyPrefix
      maxTokenBytes := 512
      defaultExpiryDays := none
      introspectCache := ⟨.memory, none, 60⟩ }
  audit :=
    { denialBufferCapacity := 1024
      retention := ⟨86400, 1⟩
      queryDefaultWindowDays := 30
      queryMaxWindowDays := 366 }

theorem routesRightly_iff_sample :
    RoutesRightly (configWith "pgs_sk_").apiKeys := by
  have valid : (configWith "pgs_sk_").validate
      (fun _ => some (List.replicate 32 0)) = .ok () := by decide
  apply (routesRightly_iff valid).mpr
  have carried : IsCarried (configWith "pgs_sk_").apiKeys.keyPrefix.toList := by
    refine ⟨by decide, ?_⟩
    intro first isFirst
    have isLetter : some 'p' = some first := isFirst
    cases isLetter
    rfl
  refine ⟨carried, ?_⟩
  have starts : (configWith "pgs_sk_").apiKeys.keyPrefix.toList =
      'p' :: "gs_sk_".toList := rfl
  exact not_spellsToken_of_first starts (by decide)

theorem spellsObject_sampleHeader :
    SpellsObject (utf8 "\x7b\"alg\":\"RS256\"\x7d") := by
  have name : JsonGrammar.IsChars "alg".toList "alg".toList := by
    apply JsonGrammar.isChars_self
    simp
  have value : JsonGrammar.IsChars "RS256".toList "RS256".toList := by
    apply JsonGrammar.isChars_self
    simp
  have noSpaces : JsonGrammar.IsSpaces [] := nofun
  have member := JsonGrammar.IsMember.mk name noSpaces noSpaces
    (JsonGrammar.IsValue.string value)
  have isObject := JsonGrammar.IsValue.object
    (JsonGrammar.IsMembers.single noSpaces member noSpaces)
  exact ⟨_, _, rfl, [], _, [], rfl, noSpaces, isObject, noSpaces⟩

/-- The prefix `ey` is accepted, and every token whose header begins with a
brace and a quotation mark is taken for an API key.  A prefix with a blank in
front is accepted too, and no key with it is known again. -/
theorem accepted_prefix_takes_token :
    ((configWith "ey").validate (fun _ => some (List.replicate 32 0)) =
          .ok () ∧
        (∃ token request, IsCompactToken token ∧
          isExempt request.path = false ∧ request.Presents token ∧
            RouterState.call ⟨"ey", false⟩ request = .apiKey token) ∧
        ¬ RoutesRightly (configWith "ey").apiKeys) ∧
      (configWith " sk_").validate (fun _ => some (List.replicate 32 0)) =
          .ok () ∧
        ¬ RoutesRightly (configWith " sk_").apiKeys := by
  obtain ⟨token, isToken, text⟩ :=
    exists_token _ [] [] spellsObject_sampleHeader
  have taken : routesToApiKey "ey" token = true := by
    apply List.isPrefixOf_iff_prefix.mpr
    rw [text]
    exact List.IsPrefix.trans (by decide) (List.prefix_append _ _)
  obtain ⟨enforced, presented⟩ := presenting_presents token
  refine ⟨⟨by decide, ⟨token, _, isToken, enforced, presented, ?_⟩, ?_⟩,
    by decide, ?_⟩
  · rw [isToken.call enforced presented, if_pos taken]
  · intro right
    have apart : routesToApiKey "ey" token = false := right.apart isToken
    rw [apart] at taken
    cases taken
  · intro right
    have carried := right.carried (by decide)
    exact absurd (carried.2 ' ' rfl) (by decide)

end Paigasus.ApiKeys
