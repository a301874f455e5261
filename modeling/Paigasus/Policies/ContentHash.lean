import Mathlib.Data.List.Lex
import Mathlib.Data.List.Sort
import Paigasus.Foundation.Bytes
import Paigasus.Policies.Engine

/-!
# The content hash of a compiled policy set

The hash covers the fields of the documents and grants that `compile` reads, in
sorted order and each with its length in front.  Two policy sets whose
encodings agree have the same documents and grants up to their order.
-/

namespace Paigasus.Policies

open Foundation Core

def kindText : PolicyKind → String
  | .static => "static"
  | .template => "template"

def docRow (doc : PolicyDocument) : List String :=
  [doc.policyId, kindText doc.kind, doc.source]

def grantRow (grant : RoleGrant) : List String :=
  [String.ofList grant.id.hyphenated, grant.principal.canonical,
    grant.roleKey, grant.scope.canonicalPrn, grant.linkedPolicyId]

def sortedRows (rows : List (List String)) : List (List String) :=
  rows.insertionSort (· ≤ ·)

def encodeRows (rows : List (List String)) : List UInt8 :=
  leBytes 8 rows.length ++
    rows.flatMap fun row => row.flatMap fun field => prefixed (utf8 field)

def contentEncoding (docs : List PolicyDocument) (grants : List RoleGrant) :
    List UInt8 :=
  prefixed (utf8 "policies") ++ encodeRows (sortedRows (docs.map docRow)) ++
    prefixed (utf8 "grants") ++ encodeRows (sortedRows (grants.map grantRow))

def toHex (bytes : List UInt8) : List Char :=
  bytes.flatMap fun byte => Uuid.hexDigits 2 byte.toNat

def contentHash (blake3 : List UInt8 → Vector UInt8 32)
    (docs : List PolicyDocument) (grants : List RoleGrant) : String :=
  String.ofList (toHex (blake3 (contentEncoding docs grants)).toList)

/-- The same documents and grants, as far as `compile` reads them. -/
def SameContent (docs otherDocs : List PolicyDocument)
    (grants otherGrants : List RoleGrant) : Prop :=
  (docs.map docRow).Perm (otherDocs.map docRow) ∧
    (grants.map grantRow).Perm (otherGrants.map grantRow)

/-- Lists and texts that fit in memory: no length reaches 64 bits. -/
structure Sized (docs : List PolicyDocument) (grants : List RoleGrant) :
    Prop where
  docCount : docs.length < 2 ^ 64
  grantCount : grants.length < 2 ^ 64
  docFields : ∀ doc ∈ docs, ∀ field ∈ docRow doc,
    (utf8 field).length < 2 ^ 64
  grantFields : ∀ grant ∈ grants, ∀ field ∈ grantRow grant,
    (utf8 field).length < 2 ^ 64

theorem rows_eq_of_flatten_eq {arity : Nat} {rows others : List (List String)}
    (rowArity : ∀ row ∈ rows, row.length = arity)
    (otherArity : ∀ row ∈ others, row.length = arity)
    (sameCount : rows.length = others.length)
    (same : rows.flatten = others.flatten) : rows = others := by
  induction rows generalizing others with
  | nil =>
      cases others with
      | nil => rfl
      | cons other others => cases sameCount
  | cons row rows ih =>
      cases others with
      | nil => cases sameCount
      | cons other others =>
          rw [List.flatten_cons, List.flatten_cons] at same
          have sameLength : row.length = other.length := by
            rw [rowArity row List.mem_cons_self,
              otherArity other List.mem_cons_self]
          obtain ⟨sameRow, sameRest⟩ := List.append_inj same sameLength
          have sameRows := ih
            (fun next member => rowArity next (List.mem_cons_of_mem _ member))
            (fun next member =>
              otherArity next (List.mem_cons_of_mem _ member))
            (by simpa using sameCount) sameRest
          rw [sameRow, sameRows]

theorem flatten_length {arity : Nat} {rows : List (List String)}
    (rowArity : ∀ row ∈ rows, row.length = arity) :
    rows.flatten.length = rows.length * arity := by
  induction rows with
  | nil => simp
  | cons row rows ih =>
      have rest := ih
        (fun next member => rowArity next (List.mem_cons_of_mem _ member))
      rw [List.flatten_cons, List.length_append, rest,
        rowArity row List.mem_cons_self, List.length_cons]
      ring

theorem encodeRows_append_inj {arity : Nat} {rows others : List (List String)}
    {rest remaining : List UInt8}
    (rowArity : ∀ row ∈ rows, row.length = arity)
    (otherArity : ∀ row ∈ others, row.length = arity)
    (rowCount : rows.length < 2 ^ 64) (otherCount : others.length < 2 ^ 64)
    (rowFields : ∀ row ∈ rows, ∀ field ∈ row, (utf8 field).length < 2 ^ 64)
    (otherFields : ∀ row ∈ others, ∀ field ∈ row,
      (utf8 field).length < 2 ^ 64)
    (same : encodeRows rows ++ rest = encodeRows others ++ remaining) :
    rows = others ∧ rest = remaining := by
  have flat : ∀ table : List (List String),
      (table.flatMap fun row => row.flatMap fun field =>
        prefixed (utf8 field)) =
        (table.flatten.map utf8).flatMap prefixed := by
    intro table
    induction table with
    | nil => rfl
    | cons row table ih =>
        have ofRow : (row.flatMap fun field => prefixed (utf8 field)) =
            (row.map utf8).flatMap prefixed := by
          rw [List.flatMap_map]
        rw [List.flatMap_cons, ih, ofRow, List.flatten_cons, List.map_append,
          List.flatMap_append]
  unfold encodeRows at same
  rw [flat, flat, List.append_assoc, List.append_assoc] at same
  obtain ⟨sameBytes, sameFields⟩ :=
    List.append_inj same (by rw [leBytes_length, leBytes_length])
  have sameCount : rows.length = others.length :=
    leBytes_injective (by simpa using rowCount) (by simpa using otherCount)
      sameBytes
  have small : ∀ table : List (List String),
      (∀ row ∈ table, ∀ field ∈ row, (utf8 field).length < 2 ^ 64) →
      ∀ bytes ∈ table.flatten.map utf8, bytes.length < 2 ^ 64 := by
    intro table fields bytes member
    obtain ⟨field, inTable, rfl⟩ := List.mem_map.mp member
    obtain ⟨row, inRows, inRow⟩ := List.mem_flatten.mp inTable
    exact fields row inRows field inRow
  obtain ⟨sameTexts, sameRest⟩ := flatMap_prefixed_inj
    (by rw [List.length_map, List.length_map, flatten_length rowArity,
      flatten_length otherArity, sameCount])
    (small rows rowFields) (small others otherFields) sameFields
  have sameFlat := List.map_injective_iff.mpr utf8_injective sameTexts
  exact ⟨rows_eq_of_flatten_eq rowArity otherArity sameCount sameFlat,
    sameRest⟩

theorem mem_sortedRows {rows : List (List String)} {row : List String} :
    row ∈ sortedRows rows ↔ row ∈ rows :=
  (List.perm_insertionSort (· ≤ ·) rows).mem_iff

theorem sortedRows_length (rows : List (List String)) :
    (sortedRows rows).length = rows.length :=
  (List.perm_insertionSort (· ≤ ·) rows).length_eq

theorem perm_of_sortedRows_eq {rows others : List (List String)}
    (same : sortedRows rows = sortedRows others) : rows.Perm others := by
  have sorted := List.perm_insertionSort (· ≤ ·) rows
  have otherSorted := List.perm_insertionSort (· ≤ ·) others
  unfold sortedRows at same
  rw [same] at sorted
  exact sorted.symm.trans otherSorted

/-- Sorting forgets the order the rows came in. -/
theorem sortedRows_eq_of_perm {rows others : List (List String)}
    (same : rows.Perm others) : sortedRows rows = sortedRows others := by
  have sorted : (sortedRows rows).Perm (sortedRows others) :=
    ((List.perm_insertionSort (· ≤ ·) rows).trans same).trans
      (List.perm_insertionSort (· ≤ ·) others).symm
  exact sorted.eq_of_pairwise
    (fun left right _ _ ascending descending =>
      le_antisymm ascending descending)
    (List.pairwise_insertionSort (· ≤ ·) rows)
    (List.pairwise_insertionSort (· ≤ ·) others)

theorem sameContent_of_encoding_eq {docs otherDocs : List PolicyDocument}
    {grants otherGrants : List RoleGrant} (sized : Sized docs grants)
    (otherSized : Sized otherDocs otherGrants)
    (same : contentEncoding docs grants =
      contentEncoding otherDocs otherGrants) :
    SameContent docs otherDocs grants otherGrants := by
  have docArity : ∀ list : List PolicyDocument,
      ∀ row ∈ sortedRows (list.map docRow), row.length = 3 := by
    intro list row member
    obtain ⟨doc, _, rfl⟩ := List.mem_map.mp (mem_sortedRows.mp member)
    rfl
  have grantArity : ∀ list : List RoleGrant,
      ∀ row ∈ sortedRows (list.map grantRow), row.length = 5 := by
    intro list row member
    obtain ⟨grant, _, rfl⟩ := List.mem_map.mp (mem_sortedRows.mp member)
    rfl
  have docSmall : ∀ list : List PolicyDocument, (∀ doc ∈ list,
      ∀ field ∈ docRow doc, (utf8 field).length < 2 ^ 64) →
      ∀ row ∈ sortedRows (list.map docRow), ∀ field ∈ row,
        (utf8 field).length < 2 ^ 64 := by
    intro list small row member
    obtain ⟨doc, inList, rfl⟩ := List.mem_map.mp (mem_sortedRows.mp member)
    exact small doc inList
  have grantSmall : ∀ list : List RoleGrant, (∀ grant ∈ list,
      ∀ field ∈ grantRow grant, (utf8 field).length < 2 ^ 64) →
      ∀ row ∈ sortedRows (list.map grantRow), ∀ field ∈ row,
        (utf8 field).length < 2 ^ 64 := by
    intro list small row member
    obtain ⟨grant, inList, rfl⟩ := List.mem_map.mp (mem_sortedRows.mp member)
    exact small grant inList
  unfold contentEncoding at same
  simp only [List.append_assoc] at same
  have afterTag := (List.append_cancel_left_eq _ _ _).mp same
  obtain ⟨sameDocs, afterDocs⟩ := encodeRows_append_inj
    (docArity docs) (docArity otherDocs)
    (by rw [sortedRows_length, List.length_map]; exact sized.docCount)
    (by rw [sortedRows_length, List.length_map]; exact otherSized.docCount)
    (docSmall docs sized.docFields) (docSmall otherDocs otherSized.docFields)
    afterTag
  have afterSecondTag := (List.append_cancel_left_eq _ _ _).mp afterDocs
  have sameGrants := (@encodeRows_append_inj 5 _ _ [] []
    (grantArity grants) (grantArity otherGrants)
    (by rw [sortedRows_length, List.length_map]; exact sized.grantCount)
    (by rw [sortedRows_length, List.length_map]; exact otherSized.grantCount)
    (grantSmall grants sized.grantFields)
    (grantSmall otherGrants otherSized.grantFields)
    (by simpa using afterSecondTag)).1
  exact ⟨perm_of_sortedRows_eq sameDocs, perm_of_sortedRows_eq sameGrants⟩

theorem encoding_eq_of_sameContent {docs otherDocs : List PolicyDocument}
    {grants otherGrants : List RoleGrant}
    (same : SameContent docs otherDocs grants otherGrants) :
    contentEncoding docs grants = contentEncoding otherDocs otherGrants := by
  rw [contentEncoding, contentEncoding, sortedRows_eq_of_perm same.1,
    sortedRows_eq_of_perm same.2]

/-- What the hash is taken of: slices whose lengths, and the lengths of whose
texts, are machine words. -/
structure HashInput where
  docs : List PolicyDocument
  grants : List RoleGrant
  sized : Sized docs grants

/-- The hashed bytes tell the documents and grants, as far as they are
compiled, and nothing of their order. -/
theorem contentEncoding_eq_iff (left right : HashInput) :
    contentEncoding left.docs left.grants =
        contentEncoding right.docs right.grants ↔
      SameContent left.docs right.docs left.grants right.grants :=
  ⟨sameContent_of_encoding_eq left.sized right.sized,
    encoding_eq_of_sameContent⟩

section Sample

def sampleDoc (policyId : String) (createdAt : Timestamp) : PolicyDocument where
  policyId := policyId
  kind := .static
  source := "permit(principal, action, resource);"
  description := ""
  system := false
  createdAt := createdAt
  updatedAt := 0

def sampleGrant (id : Uuid) : RoleGrant where
  id := id
  principal := PrincipalId.fromUuid 7
  roleKey := "org_admin"
  scope := .root
  linkedPolicyId := grantPolicyId id
  createdAt := 0

def listedInput : HashInput where
  docs := [sampleDoc "first" 0, sampleDoc "second" 0]
  grants := [sampleGrant 1, sampleGrant 2]
  sized := ⟨by decide, by decide, by decide +kernel, by decide +kernel⟩

/-- The same content in another order, and with another time of creation. -/
def reorderedInput : HashInput where
  docs := [sampleDoc "second" 1, sampleDoc "first" 0]
  grants := [sampleGrant 2, sampleGrant 1]
  sized := ⟨by decide, by decide, by decide +kernel, by decide +kernel⟩

theorem contentEncoding_reordered :
    contentEncoding listedInput.docs listedInput.grants =
      contentEncoding reorderedInput.docs reorderedInput.grants :=
  (contentEncoding_eq_iff listedInput reorderedInput).mpr
    ⟨List.Perm.swap _ _ [], List.Perm.swap _ _ []⟩

end Sample

theorem toHex_injective {left right : List UInt8}
    (same : toHex left = toHex right) : left = right := by
  have digits : ∀ byte other : UInt8, Uuid.hexDigits 2 byte.toNat =
      Uuid.hexDigits 2 other.toNat → byte = other := by
    intro byte other sameDigits
    have values := congrArg (Uuid.parseHexFrom 0) sameDigits
    rw [Uuid.parseHexFrom_hexDigits 0 2 _ byte.toNat_lt,
      Uuid.parseHexFrom_hexDigits 0 2 _ other.toNat_lt] at values
    apply UInt8.toNat_inj.mp
    simpa using values
  induction left generalizing right with
  | nil =>
      cases right with
      | nil => rfl
      | cons byte bytes =>
          have lengths := congrArg List.length same
          simp [toHex] at lengths
          omega
  | cons byte bytes ih =>
      cases right with
      | nil =>
          have lengths := congrArg List.length same
          simp [toHex] at lengths
      | cons other others =>
          unfold toHex at same
          rw [List.flatMap_cons, List.flatMap_cons] at same
          obtain ⟨sameDigits, sameRest⟩ := List.append_inj same (by simp)
          rw [digits byte other sameDigits, ih sameRest]

theorem not_mem_toHex {separator : Char}
    (notHex : Uuid.hexValue? separator = none) (bytes : List UInt8) :
    separator ∉ toHex bytes := by
  intro member
  obtain ⟨byte, _, inDigits⟩ := List.mem_flatMap.mp member
  exact Uuid.not_mem_hexDigits notHex 2 byte.toNat inDigits

end Paigasus.Policies
