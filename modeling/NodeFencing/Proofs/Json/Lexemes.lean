/-
The characters of a token, and the blanks around it.

`Written` says how a text is made of tokens: each is put down in some characters of its own, and
blanks may stand anywhere between them.  What a reader finds in such a text are the tokens that it
was made of.  Most tokens can be told wherever they stand; a number goes on as long as it can, so
what follows it must not belong to it.

The other way round, every text whose tokens are all sound is made of them in this way, since
whatever the reader takes off the front of a text is the characters of a token.
-/
import NodeFencing.Proofs.Json.Tokens

namespace NodeFencing.Json

/-! ### Quoted texts -/

/-- The characters of a piece of a quoted text: a character as it is, an escape of one letter, or
the number of a unit. -/
inductive PieceChars : Piece → List Char → Prop where
  | plain {c : Char} : c ≠ '"' → c ≠ '\\' → 0x20 ≤ c.toNat → PieceChars (.plain c) [c]
  | escape {c e : Char} : readEscape e = some c → PieceChars (.plain c) ['\\', e]
  | unit {n : Nat} {a b c d : Char} : Hex.four? a b c d = some n →
      PieceChars (.unit n) ['\\', 'u', a, b, c, d]

/-- The characters of pieces, up to the closing quote. -/
inductive PiecesChars : List Piece → List Char → Prop where
  | close : PiecesChars [] ['"']
  | piece {p : Piece} {ps : List Piece} {l cs : List Char} : PieceChars p l → PiecesChars ps cs →
      PiecesChars (p :: ps) (l ++ cs)

theorem pieces_of_pieceChars {p : Piece} {l : List Char} (h : PieceChars p l) (rest : List Char) :
    pieces (l ++ rest) = (p :: (pieces rest).1, (pieces rest).2) := by
  cases h with
  | @plain c hquote hslash hlow =>
      have hc : ¬ c.toNat < 0x20 := Nat.not_lt.mpr hlow
      rw [List.singleton_append, pieces.eq_def]
      split <;> simp_all
  | @escape c e he =>
      have hu : e ≠ 'u' := by rintro rfl; cases he
      show pieces ('\\' :: e :: rest) = _
      rw [pieces, he]
      · exact fun _ _ _ _ _ h => absurd h hu
      · exact fun h => absurd h hu
  | @unit n a b c d hn =>
      show pieces ('\\' :: 'u' :: a :: b :: c :: d :: rest) = _
      rw [pieces, hn]

/-- A quoted text is read from its characters, whatever follows. -/
theorem pieces_append {ps : List Piece} {cs : List Char} (h : PiecesChars ps cs)
    (rest : List Char) : pieces (cs ++ rest) = (ps, .ok rest) := by
  induction h with
  | close => rfl
  | piece hp _ ih => rw [List.append_assoc, pieces_of_pieceChars hp, ih]

/-- What is read as a quoted text are its characters. -/
theorem exists_of_pieces (cs : List Char) {ps : List Piece} {rest : List Char}
    (h : pieces cs = (ps, .ok rest)) : ∃ l, cs = l ++ rest ∧ PiecesChars ps l := by
  -- Three of the cases take a piece off the front; the others end the text, well or not.
  fun_induction pieces cs generalizing ps with
  | case2 rest => cases h; exact ⟨['"'], rfl, .close⟩
  | case5 a b c d tail n hn ps' after hps ih =>
      obtain ⟨rfl, rfl⟩ := Prod.mk.inj h
      obtain ⟨l, rfl, hl⟩ := ih hps
      exact ⟨['\\', 'u', a, b, c, d] ++ l, rfl, .piece (.unit hn) hl⟩
  | case8 e tail _ _ c hc ps' after hps ih =>
      obtain ⟨rfl, rfl⟩ := Prod.mk.inj h
      obtain ⟨l, rfl, hl⟩ := ih hps
      exact ⟨['\\', e] ++ l, rfl, .piece (.escape hc) hl⟩
  | case10 c tail hquote hend _ _ hslash hlow ps' after hps ih =>
      obtain ⟨rfl, rfl⟩ := Prod.mk.inj h
      obtain ⟨l, rfl, hl⟩ := ih hps
      have hc : c ≠ '\\' := by
        intro hc
        cases hl' : l ++ rest with
        | nil => exact hend hc hl'
        | cons d tail => exact hslash d tail hc hl'
      exact ⟨[c] ++ l, rfl, .piece (.plain hquote hc (Nat.not_lt.mp hlow)) hl⟩
  | _ => cases h

/-! ### Tokens -/

/-- The characters of a token. -/
inductive Lexeme : Token → List Char → Prop where
  | openObject : Lexeme .openObject ['\x7b']
  | closeObject : Lexeme .closeObject ['\x7d']
  | openArray : Lexeme .openArray ['[']
  | closeArray : Lexeme .closeArray [']']
  | colon : Lexeme .colon [':']
  | comma : Lexeme .comma [',']
  | null : Lexeme .null ['n', 'u', 'l', 'l']
  | true : Lexeme (.bool true) ['t', 'r', 'u', 'e']
  | false : Lexeme (.bool false) ['f', 'a', 'l', 's', 'e']
  | number {n : Numeral} {cs : List Char} : NumberChars n cs → Lexeme (.number n) cs
  | text {ps : List Piece} {cs : List Char} : PiecesChars ps cs →
      Lexeme (.text (String.ofList <$> assemble none ps)) ('"' :: cs)

namespace Token

/-- Whether a token is one of its own and not the place where a text breaks off. -/
def IsSound : Token → Prop
  | .brokenText _ | .broken _ => False
  | _ => True

/-- Whether a token is a number. -/
def IsNumber (token : Token) : Prop := ∃ n, token = .number n

end Token

/-- A text is made of tokens: the characters of each of them, with blanks anywhere between them,
and after a number something that cannot belong to it. -/
inductive Written : List Token → List Char → Prop where
  | nil : Written [] []
  | blank {ts : List Token} {c : Char} {cs : List Char} : isSpace c = true → Written ts cs →
      Written ts (c :: cs)
  | token {token : Token} {ts : List Token} {l cs : List Char} : Lexeme token l →
      (token.IsNumber → EndsNumber cs) → Written ts cs → Written (token :: ts) (l ++ cs)

/-- A token is found where its characters stand. -/
theorem tokens_lexeme {token : Token} {l rest : List Char} (h : Lexeme token l)
    (hnumber : token.IsNumber → EndsNumber rest) :
    tokens (l ++ rest) = token :: tokens rest := by
  cases h with
  | number hn => exact tokens_number hn (hnumber ⟨_, rfl⟩)
  | @text ps cs hps =>
      refine tokens_cons rfl ?_
      show step '"' (cs ++ rest) = _
      simp only [step, pieces_append hps]
  | _ => exact tokens_cons rfl rfl

/-- What is found in a text are the tokens that it was made of. -/
theorem Written.tokens_eq {ts : List Token} {cs : List Char} (h : Written ts cs) :
    tokens cs = ts := by
  induction h with
  | nil => rw [tokens]
  | blank hspace _ ih => rw [tokens, hspace, if_pos rfl, ih]
  | token hl hnumber _ ih => rw [tokens_lexeme hl hnumber, ih]

/-! ### Every text with sound tokens is made of them -/

theorem exists_of_readWord {word cs rest : List Char} (h : readWord word cs = .ok rest) :
    cs = word ++ rest := by
  induction word generalizing cs with
  | nil => cases h; rfl
  | cons w word ih =>
      cases cs with
      | nil => cases h
      | cons c cs =>
          simp only [readWord] at h
          split at h
          · next hc => rw [hc, ih h, List.cons_append]
          · cases h

theorem exists_of_word {word cs rest : List Char} {token wanted : Token}
    (h : (match readWord word cs with
      | .ok rest => (wanted, rest)
      | .error f => (.broken (.both f), [])) = (token, rest)) (hsound : token.IsSound) :
    token = wanted ∧ cs = word ++ rest := by
  split at h
  · next hword => cases h; exact ⟨rfl, exists_of_readWord hword⟩
  · cases h; exact hsound.elim

/-- What the reader takes off the front of a text are the characters of a token. -/
theorem exists_of_step {c : Char} {cs rest : List Char} {token : Token}
    (h : step c cs = (token, rest)) (hsound : token.IsSound) :
    (∃ l, c :: cs = l ++ rest ∧ Lexeme token l) ∧ (token.IsNumber → EndsDigits rest) := by
  unfold step at h
  split at h
  · cases h; exact ⟨⟨['\x7b'], rfl, .openObject⟩, nofun⟩
  · cases h; exact ⟨⟨['\x7d'], rfl, .closeObject⟩, nofun⟩
  · cases h; exact ⟨⟨['['], rfl, .openArray⟩, nofun⟩
  · cases h; exact ⟨⟨[']'], rfl, .closeArray⟩, nofun⟩
  · cases h; exact ⟨⟨[':'], rfl, .colon⟩, nofun⟩
  · cases h; exact ⟨⟨[','], rfl, .comma⟩, nofun⟩
  · obtain ⟨rfl, rfl⟩ := exists_of_word h hsound
    exact ⟨⟨['n', 'u', 'l', 'l'], rfl, .null⟩, nofun⟩
  · obtain ⟨rfl, rfl⟩ := exists_of_word h hsound
    exact ⟨⟨['t', 'r', 'u', 'e'], rfl, .true⟩, nofun⟩
  · obtain ⟨rfl, rfl⟩ := exists_of_word h hsound
    exact ⟨⟨['f', 'a', 'l', 's', 'e'], rfl, .false⟩, nofun⟩
  · split at h
    · next ps tail hps =>
      cases h
      obtain ⟨l, hl, hchars⟩ := exists_of_pieces cs hps
      exact ⟨⟨'"' :: l, by rw [hl]; rfl, .text hchars⟩, nofun⟩
    · next ps f hps =>
      cases h
      unfold brokenToken at hsound
      split at hsound <;> exact hsound.elim
  · split at h
    · split at h
      · next n tail hn =>
        cases h
        obtain ⟨⟨l, hl, hchars⟩, hends⟩ := exists_of_readNumber hn
        exact ⟨⟨l, hl, .number hchars⟩, fun _ => hends⟩
      · cases h; exact hsound.elim
    · cases h; exact hsound.elim

/-- A text with sound tokens does not begin with a sign that only a number before it could have. -/
theorem endsNumber_of_tokens {cs : List Char} (h : ∀ token ∈ tokens cs, token.IsSound)
    (hdigits : EndsDigits cs) : EndsNumber cs := by
  cases cs with
  | nil => nofun
  | cons c cs =>
      have hbegins : c = '.' ∨ c = 'e' ∨ c = 'E' → False := by
        intro hc
        have hfirst : (step c cs).1 ∈ tokens (c :: cs) := by
          rcases hc with rfl | rfl | rfl <;> (rw [tokens]; exact List.mem_cons_self)
        have hsound := h _ hfirst
        rcases hc with rfl | rfl | rfl <;> exact hsound
      rintro _ ⟨⟩
      exact ⟨hdigits c rfl, fun hc => hbegins (.inl hc), fun hc => hbegins (.inr (.inl hc)),
        fun hc => hbegins (.inr (.inr hc))⟩

/-- A text whose tokens are sound is made of them. -/
theorem written_tokens (cs : List Char) (h : ∀ token ∈ tokens cs, token.IsSound) :
    Written (tokens cs) cs := by
  induction cs using tokens.induct with
  | case1 => rw [tokens]; exact .nil
  | case2 c rest hspace ih =>
      rw [tokens, if_pos hspace] at h ⊢
      exact .blank hspace (ih h)
  | case3 c rest hspace ih =>
      rw [tokens, if_neg hspace] at h ⊢
      obtain ⟨hsound, hrest⟩ := List.forall_mem_cons.mp h
      obtain ⟨⟨l, hl, hlexeme⟩, hdigits⟩ := exists_of_step rfl hsound
      rw [hl]
      exact .token hlexeme (fun hnumber => endsNumber_of_tokens hrest (hdigits hnumber)) (ih hrest)

end NodeFencing.Json
