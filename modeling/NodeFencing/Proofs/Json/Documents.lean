/-
The tree of a written value.

`document` is the tree that a value should give, and `ofText_print` says that the written value
gives it, with no token left over.  The tree is whole and has the tokens of the value, so the
builder finds it in them.
-/
import NodeFencing.Proofs.Json.Spelling

namespace NodeFencing.Json

mutual

/-- The tree of a value. -/
def document : Json → Document
  | .null => .null
  | .bool b => .bool b
  | .int n => .number (.ofInt n)
  | .float x => .number (x.numeral layout)
  | .text s => .text (.ok s)
  | .array items => .array (documents items) none
  | .object members => .object (memberDocuments members) none

/-- The trees of items. -/
def documents : List Json → List Document
  | [] => []
  | item :: rest => document item :: documents rest

/-- The names and trees of members. -/
def memberDocuments : List (String × Json) → List (Name × Document)
  | [] => []
  | (name, value) :: rest => (.ok name, document value) :: memberDocuments rest

end

namespace Document

mutual

theorem isWhole_document : ∀ j : Json, (document j).IsWhole
  | .null => rfl
  | .bool _ => rfl
  | .int _ => rfl
  | .float _ => rfl
  | .text _ => rfl
  | .array items => isWhole_array.mpr ⟨isWhole_documents items, rfl⟩
  | .object members => isWhole_object.mpr ⟨isWhole_memberDocuments members, rfl⟩

theorem isWhole_documents : ∀ items : List Json, ∀ d ∈ documents items, d.IsWhole
  | [] => nofun
  | item :: items =>
      List.forall_mem_cons.mpr ⟨isWhole_document item, isWhole_documents items⟩

theorem isWhole_memberDocuments : ∀ members : List (String × Json),
    ∀ m ∈ memberDocuments members, m.2.IsWhole
  | [] => nofun
  | (_, value) :: members =>
      List.forall_mem_cons.mpr ⟨isWhole_document value, isWhole_memberDocuments members⟩

end

mutual

theorem parts_document : ∀ j : Json, parts (document j) = tokensOf j
  | .null => rfl
  | .bool _ => rfl
  | .int _ => rfl
  | .float _ => rfl
  | .text _ => rfl
  | .array items => by rw [document, parts, itemParts_documents, tokensOf, ending]
  | .object members => by rw [document, parts, memberParts_memberDocuments, tokensOf, ending]

theorem itemParts_documents : ∀ items : List Json, itemParts (documents items) = itemTokens items
  | [] => rfl
  | [item] => parts_document item
  | item :: next :: items => by
      have hitem := parts_document item
      have hitems := itemParts_documents (next :: items)
      rw [documents] at hitems
      rw [documents, documents, itemParts, hitem, hitems]
      · rfl
      · simp

theorem memberParts_memberDocuments : ∀ members : List (String × Json),
    memberParts (memberDocuments members) = memberTokens members
  | [] => rfl
  | [(name, value)] => by
      rw [memberDocuments, memberDocuments, memberParts, parts_document value, memberTokens]
  | (name, value) :: (name', value') :: members => by
      have hvalue := parts_document value
      have hmembers := memberParts_memberDocuments ((name', value') :: members)
      rw [memberDocuments] at hmembers
      rw [memberDocuments, memberDocuments, memberParts, hvalue, hmembers]
      · rfl
      · simp

end

/-- A written value gives its tree, and nothing is left over. -/
theorem ofText_print (j : Json) : ofText j.print = (document j, []) := by
  have htokens : tokens (chars j) = tokensOf j := by
    have h : tokens (chars j ++ []) = tokensOf j ++ tokens [] := tokens_chars j nofun
    rwa [List.append_nil, tokens, List.append_nil] at h
  rw [ofText, print, String.toList_ofList, htokens, ← parts_document,
    ofTokens_parts (isWhole_document j)]

end Document

end NodeFencing.Json
