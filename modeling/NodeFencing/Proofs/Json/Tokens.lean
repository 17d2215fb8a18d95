/-
The tokens of a written value.

`tokensOf` says which tokens a value consists of, and `tokens_chars` that a reader finds just
these in its written form, wherever that stands: whatever follows a value begins with a comma
or the end of a container, which is where a number ends.

A text is read back because every character is escaped to one piece that stands for it again.
-/
import NodeFencing.Proofs.Json.Numbers

namespace NodeFencing.Json

/-- Whether a text ends, or goes on with what may follow a value. -/
def Closes (rest : List Char) : Prop := ∀ c ∈ rest.head?, c = ',' ∨ c = ']' ∨ c = '\x7d'

theorem Closes.endsNumber {rest : List Char} (h : Closes rest) : EndsNumber rest := by
  intro c hc
  rcases h c hc with rfl | rfl | rfl <;> decide

/-! ### Quoted texts -/

/-- The piece that a character is written as. -/
def pieceOf (c : Char) : Piece :=
  if c.toNat < 0x20 ∧ c ∉ ['\x08', '\x0c', '\n', '\r', '\t'] then .unit c.toNat else .plain c

theorem four?_lower {n : Nat} (h : n < 0x20) :
    Hex.four? '0' '0' (Hex.lower (n / 16)) (Hex.lower (n % 16)) = some n := by
  have : ∀ m : Fin 0x20,
      Hex.four? '0' '0' (Hex.lower (m.val / 16)) (Hex.lower (m.val % 16)) = some m.val := by decide
  exact this ⟨n, h⟩

/-- A written character is one piece. -/
theorem pieces_escape (c : Char) (rest : List Char) :
    pieces (escape c ++ rest) = (pieceOf c :: (pieces rest).1, (pieces rest).2) := by
  unfold escape
  -- An escape of one letter is read back by its letter; what is left has none.
  split <;> try rfl
  next hquote hslash hb hf hn hr ht =>
    split
    · next hlow =>
        have hp : pieceOf c = .unit c.toNat := if_pos ⟨hlow, by simp_all⟩
        simp [pieces, four?_lower hlow, hp]
    · next hlow =>
        have hp : pieceOf c = .plain c := if_neg fun h => hlow h.1
        rw [List.singleton_append, hp, pieces.eq_def]
        split <;> simp_all

/-- The pieces of a quoted text are those of its characters. -/
theorem pieces_flatMap_escape (cs rest : List Char) :
    pieces (cs.flatMap escape ++ '"' :: rest) = (cs.map pieceOf, .ok rest) := by
  induction cs with
  | nil => simp [pieces]
  | cons c cs ih =>
      rw [List.flatMap_cons, List.append_assoc, pieces_escape, ih, List.map_cons]

/-- The pieces that characters are written as stand for these characters. -/
theorem assemble_pieceOf (cs : List Char) : assemble none (cs.map pieceOf) = .ok cs := by
  induction cs with
  | nil => rfl
  | cons c cs ih =>
      rw [List.map_cons, pieceOf]
      split
      · next h =>
          -- A control character is far below the halves of pairs.
          have hlow : isLowHalf c.toNat = false := by simp [isLowHalf]; omega
          have hhigh : isHighHalf c.toNat = false := by simp [isHighHalf]; omega
          rw [assemble.eq_def]
          simp only [hlow, hhigh, ih]
          rw [if_neg Bool.false_ne_true, if_neg Bool.false_ne_true, Char.ofNat_toNat]
          rfl
      · rw [assemble, ih]
        rfl

/-! ### Tokens -/

mutual

/-- The tokens of a value. -/
def tokensOf : Json → List Token
  | .null => [.null]
  | .bool b => [.bool b]
  | .int n => [.number (.ofInt n)]
  | .float x => [.number (x.numeral layout)]
  | .text s => [.text (.ok s)]
  | .array items => .openArray :: itemTokens items ++ [.closeArray]
  | .object members => .openObject :: memberTokens members ++ [.closeObject]

/-- The tokens of items, with commas between them. -/
def itemTokens : List Json → List Token
  | [] => []
  | [item] => tokensOf item
  | item :: rest => tokensOf item ++ .comma :: itemTokens rest

/-- The tokens of members, with commas between them. -/
def memberTokens : List (String × Json) → List Token
  | [] => []
  | [(name, value)] => .text (.ok name) :: .colon :: tokensOf value
  | (name, value) :: rest =>
    .text (.ok name) :: .colon :: (tokensOf value ++ .comma :: memberTokens rest)

end

theorem tokens_cons {c : Char} {rest after : List Char} {token : Token}
    (hspace : isSpace c = false) (hstep : step c rest = (token, after)) :
    tokens (c :: rest) = token :: tokens after := by
  rw [tokens, hspace, hstep]
  rfl

theorem step_of_number {c : Char} {cs rest : List Char} {n : Numeral}
    (hc : c = '-' ∨ c.isDigit = true) (h : readNumber (c :: cs) = .ok (n, rest)) :
    step c cs = (.number n, rest) := by
  unfold step
  split <;> try (exact absurd hc (by decide))
  rw [if_pos hc, h]

theorem isSpace_eq_false {c : Char} (h : c = '-' ∨ c.isDigit = true) : isSpace c = false := by
  simp only [isSpace, Bool.or_eq_false_iff, decide_eq_false_iff_not]
  refine ⟨⟨⟨?_, ?_⟩, ?_⟩, ?_⟩ <;> (rintro rfl; exact absurd h (by decide))

/-- A number is found where its characters stand, if what follows does not belong to it. -/
theorem tokens_number {n : Numeral} {l rest : List Char} (h : NumberChars n l)
    (hrest : EndsNumber rest) : tokens (l ++ rest) = .number n :: tokens rest := by
  obtain ⟨c, cs, rfl, hc⟩ := h.exists_cons
  exact tokens_cons (isSpace_eq_false hc) (step_of_number hc (readNumber_append h hrest))

theorem tokens_numeral {n : Numeral} (hn : IsNumeral n) {rest : List Char} (h : Closes rest) :
    tokens (n.chars ++ rest) = .number n :: tokens rest :=
  tokens_number (numberChars_chars hn) h.endsNumber

theorem tokens_quoted (s : String) (rest : List Char) :
    tokens (quoted s ++ rest) = .text (.ok s) :: tokens rest := by
  have hstep : step '"' (s.toList.flatMap escape ++ '"' :: rest) = (.text (.ok s), rest) := by
    simp only [step, pieces_flatMap_escape, assemble_pieceOf]
    show (Token.text (.ok (String.ofList s.toList)), rest) = (.text (.ok s), rest)
    rw [String.ofList_toList]
  rw [quoted, List.cons_append, List.cons_append, List.append_assoc, List.singleton_append]
  exact tokens_cons rfl hstep

theorem tokens_openArray (cs : List Char) : tokens ('[' :: cs) = .openArray :: tokens cs :=
  tokens_cons rfl rfl

theorem tokens_closeArray (cs : List Char) : tokens (']' :: cs) = .closeArray :: tokens cs :=
  tokens_cons rfl rfl

theorem tokens_openObject (cs : List Char) : tokens ('\x7b' :: cs) = .openObject :: tokens cs :=
  tokens_cons rfl rfl

theorem tokens_closeObject (cs : List Char) : tokens ('\x7d' :: cs) = .closeObject :: tokens cs :=
  tokens_cons rfl rfl

theorem tokens_colon (cs : List Char) : tokens (':' :: cs) = .colon :: tokens cs :=
  tokens_cons rfl rfl

theorem tokens_comma (cs : List Char) : tokens (',' :: cs) = .comma :: tokens cs :=
  tokens_cons rfl rfl

theorem closes_cons {c : Char} (hc : c = ',' ∨ c = ']' ∨ c = '\x7d') (rest : List Char) :
    Closes (c :: rest) := by
  rintro d ⟨⟩
  exact hc

mutual

/-- A written value is read as its tokens, whatever follows it. -/
theorem tokens_chars : ∀ (j : Json) {rest : List Char}, Closes rest →
    tokens (chars j ++ rest) = tokensOf j ++ tokens rest
  | .null, _, _ => tokens_cons rfl rfl
  | .bool true, _, _ => tokens_cons rfl rfl
  | .bool false, _, _ => tokens_cons rfl rfl
  | .int n, _, h => tokens_numeral (isNumeral_ofInt n) h
  | .float x, _, h => tokens_numeral (isNumeral_layout layout x.negative x.absolute.digits) h
  | .text s, rest, _ => tokens_quoted s rest
  | .array items, rest, _ => by
      have hitems := tokens_itemChars items rest
      simp [chars, tokensOf, tokens_openArray, hitems]
  | .object members, rest, _ => by
      have hmembers := tokens_memberChars members rest
      simp [chars, tokensOf, tokens_openObject, hmembers]

/-- Written items are read as their tokens, up to the end of their array. -/
theorem tokens_itemChars : ∀ (items : List Json) (rest : List Char),
    tokens (itemChars items ++ ']' :: rest) = itemTokens items ++ .closeArray :: tokens rest
  | [], rest => tokens_closeArray rest
  | [item], rest => by
      have hitem := tokens_chars item (closes_cons (.inr (.inl rfl)) rest)
      rw [itemChars, itemTokens, hitem, tokens_closeArray]
  | item :: next :: items, rest => by
      have hitem := tokens_chars item
        (closes_cons (.inl rfl) (itemChars (next :: items) ++ ']' :: rest))
      have hitems := tokens_itemChars (next :: items) rest
      simp [itemChars, itemTokens, hitem, tokens_comma, hitems]

/-- Written members are read as their tokens, up to the end of their object. -/
theorem tokens_memberChars : ∀ (members : List (String × Json)) (rest : List Char),
    tokens (memberChars members ++ '\x7d' :: rest) =
      memberTokens members ++ .closeObject :: tokens rest
  | [], rest => tokens_closeObject rest
  | [(name, value)], rest => by
      have hvalue := tokens_chars value (closes_cons (.inr (.inr rfl)) rest)
      simp [memberChars, memberTokens, tokens_quoted, tokens_colon, hvalue, tokens_closeObject]
  | (name, value) :: next :: members, rest => by
      have hvalue := tokens_chars value
        (closes_cons (.inl rfl) (memberChars (next :: members) ++ '\x7d' :: rest))
      have hmembers := tokens_memberChars (next :: members) rest
      simp [memberChars, memberTokens, tokens_quoted, tokens_colon, hvalue, tokens_comma, hmembers]

end

end NodeFencing.Json
