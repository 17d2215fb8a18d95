/-
What is written is read back: characters in bytes, texts in form encoding, pairs in a query.

A character takes one to four bytes, by the size of its number.  The first byte tells how many
follow and where the second lies; the number of a character is never a surrogate nor past the last
one, which is what the ranges of the second byte rule out.

A byte in form encoding is read back from its own characters, whatever follows them.  None of the
characters is an ampersand or an equals sign, so the pieces of a query are those that were written.
-/
import NodeFencing.Text.Form

namespace NodeFencing.Utf8

theorem toNat_byte {n : Nat} (h : n < 256) : (UInt8.ofNat n).toNat = n := by
  rw [UInt8.toNat_ofNat']
  omega

theorem payload_continuing (n : Nat) : payload (UInt8.ofNat (n % 64 + 128)) = n % 64 := by
  rw [payload, toNat_byte (by omega)]
  omega

theorem continues_continuing (n : Nat) : continues (UInt8.ofNat (n % 64 + 128)) = true := by
  have : ∀ m : Fin 64, continues (UInt8.ofNat (m.val + 128)) = true := by decide
  exact this ⟨n % 64, Nat.mod_lt _ (by decide)⟩

theorem Lead.of?_two {n : Nat} (hlow : 2 ≤ n) (hhigh : n < 32) :
    of? (UInt8.ofNat (n + 192)) = some ⟨1, 0x80, 0xBF⟩ := by
  have : ∀ m : Fin 32, 2 ≤ m.val → of? (UInt8.ofNat (m.val + 192)) = some ⟨1, 0x80, 0xBF⟩ := by
    decide
  exact this ⟨n, hhigh⟩ hlow

theorem Lead.of?_three {n : Nat} (h : n < 16) :
    of? (UInt8.ofNat (n + 224)) =
      some ⟨2, if n = 0 then 0xA0 else 0x80, if n = 13 then 0x9F else 0xBF⟩ := by
  have : ∀ m : Fin 16, of? (UInt8.ofNat (m.val + 224)) =
      some ⟨2, if m.val = 0 then 0xA0 else 0x80, if m.val = 13 then 0x9F else 0xBF⟩ := by
    decide
  exact this ⟨n, h⟩

theorem Lead.of?_four {n : Nat} (h : n < 5) :
    of? (UInt8.ofNat (n + 240)) =
      some ⟨3, if n = 0 then 0x90 else 0x80, if n = 4 then 0x8F else 0xBF⟩ := by
  have : ∀ m : Fin 5, of? (UInt8.ofNat (m.val + 240)) =
      some ⟨3, if m.val = 0 then 0x90 else 0x80, if m.val = 4 then 0x8F else 0xBF⟩ := by
    decide
  exact this ⟨n, h⟩

/-- A byte below 128 stands for itself. -/
theorem decodeFrom_one {n : Nat} (h : n < 0x80) (i : Nat) (rest : List UInt8) :
    decodeFrom i (UInt8.ofNat n :: rest) = (Char.ofNat n :: ·) <$> decodeFrom (i + 1) rest := by
  have hbyte := toNat_byte (n := n) (by omega)
  have hsmall : UInt8.ofNat n < 0x80 := by
    rw [UInt8.lt_iff_toNat_lt, hbyte]
    exact h
  rw [decodeFrom.eq_def]
  simp only [if_pos hsmall, hbyte]

theorem not_small {n : Nat} (hlow : 0x80 ≤ n) (hhigh : n < 256) : ¬ UInt8.ofNat n < 0x80 := by
  rw [UInt8.lt_iff_toNat_lt, toNat_byte hhigh]
  exact Nat.not_lt.mpr hlow

/-- A second byte in the range that the first one announced is not complained about. -/
theorem not_outside (n : Nat) (low high : UInt8) (hlow : low.toNat ≤ n % 64 + 128)
    (hhigh : n % 64 + 128 ≤ high.toNat) :
    ¬ (UInt8.ofNat (n % 64 + 128) < low || high < UInt8.ofNat (n % 64 + 128)) = true := by
  simp only [Bool.or_eq_true, decide_eq_true_eq, UInt8.lt_iff_toNat_lt,
    toNat_byte (n := n % 64 + 128) (by omega)]
  omega

theorem decodeFrom_two {n : Nat} (hlow : 0x80 ≤ n) (hhigh : n < 0x800) (i : Nat)
    (rest : List UInt8) :
    decodeFrom i (UInt8.ofNat (n / 64 % 32 + 192) :: UInt8.ofNat (n % 64 + 128) :: rest) =
      (Char.ofNat n :: ·) <$> decodeFrom (i + 2) rest := by
  have hlead := Lead.of?_two (n := n / 64 % 32) (by omega) (by omega)
  have hn : (UInt8.ofNat (n / 64 % 32 + 192)).toNat % 32 * 64 + n % 64 = n := by
    rw [toNat_byte (by omega)]
    omega
  have hsecond := not_outside n 0x80 0xBF (Nat.le_add_left _ _)
    (by show n % 64 + 128 ≤ 191; omega)
  rw [decodeFrom.eq_def]
  simp only [if_neg (not_small (n := n / 64 % 32 + 192) (by omega) (by omega)), hlead,
    if_neg hsecond, payload_continuing, hn, if_pos]

theorem decodeFrom_three {n : Nat} (hlow : 0x800 ≤ n) (hhigh : n < 0x10000)
    (hvalid : n < 0xD800 ∨ 0xDFFF < n) (i : Nat) (rest : List UInt8) :
    decodeFrom i (UInt8.ofNat (n / 4096 % 16 + 224) :: UInt8.ofNat (n / 64 % 64 + 128) ::
        UInt8.ofNat (n % 64 + 128) :: rest) =
      (Char.ofNat n :: ·) <$> decodeFrom (i + 3) rest := by
  have hlead := Lead.of?_three (n := n / 4096 % 16) (by omega)
  have hn : ((UInt8.ofNat (n / 4096 % 16 + 224)).toNat % 16 * 64 + n / 64 % 64) * 64 + n % 64
      = n := by
    rw [toNat_byte (by omega)]
    omega
  have hsecond := not_outside (n / 64) (if n / 4096 % 16 = 0 then 0xA0 else 0x80)
    (if n / 4096 % 16 = 13 then 0x9F else 0xBF)
    (by split; (show 160 ≤ _; omega); exact Nat.le_add_left _ _)
    (by split; (show _ ≤ 159; omega); show _ ≤ 191; omega)
  rw [decodeFrom.eq_def]
  simp only [if_neg (not_small (n := n / 4096 % 16 + 224) (by omega) (by omega)), hlead,
    if_neg hsecond, payload_continuing, continues_continuing, hn, if_pos, Nat.reduceEqDiff,
    if_false, Bool.not_true, Bool.false_eq_true]

theorem decodeFrom_four {n : Nat} (hlow : 0x10000 ≤ n) (hhigh : n < 0x110000) (i : Nat)
    (rest : List UInt8) :
    decodeFrom i (UInt8.ofNat (n / 262144 % 8 + 240) :: UInt8.ofNat (n / 4096 % 64 + 128) ::
        UInt8.ofNat (n / 64 % 64 + 128) :: UInt8.ofNat (n % 64 + 128) :: rest) =
      (Char.ofNat n :: ·) <$> decodeFrom (i + 4) rest := by
  have hlead := Lead.of?_four (n := n / 262144 % 8) (by omega)
  have hn : (((UInt8.ofNat (n / 262144 % 8 + 240)).toNat % 8 * 64 + n / 4096 % 64) * 64 +
      n / 64 % 64) * 64 + n % 64 = n := by
    rw [toNat_byte (by omega)]
    omega
  have hsecond := not_outside (n / 4096) (if n / 262144 % 8 = 0 then 0x90 else 0x80)
    (if n / 262144 % 8 = 4 then 0x8F else 0xBF)
    (by split; (show 144 ≤ _; omega); exact Nat.le_add_left _ _)
    (by split; (show _ ≤ 143; omega); show _ ≤ 191; omega)
  rw [decodeFrom.eq_def]
  simp only [if_neg (not_small (n := n / 262144 % 8 + 240) (by omega) (by omega)), hlead,
    if_neg hsecond, payload_continuing, continues_continuing, hn, Nat.reduceEqDiff, if_false,
    Bool.not_true, Bool.false_eq_true]

/-- One character is read back, and what follows it is read on. -/
theorem decodeFrom_encodeChar (c : Char) (i : Nat) (rest : List UInt8) :
    ∃ j, decodeFrom i (String.utf8EncodeChar c ++ rest) = (c :: ·) <$> decodeFrom j rest := by
  have hvalid : c.toNat < 0xD800 ∨ 0xDFFF < c.toNat ∧ c.toNat < 0x110000 := c.valid
  have hc : Char.ofNat c.toNat = c := Char.ofNat_toNat c
  have hnumber : c.val.toNat = c.toNat := rfl
  rw [String.utf8EncodeChar.eq_1, hnumber]
  split
  · exact ⟨_, hc ▸ decodeFrom_one (n := c.toNat) (by omega) i rest⟩
  split
  · exact ⟨_, hc ▸ decodeFrom_two (n := c.toNat) (by omega) (by omega) i rest⟩
  split
  · exact ⟨_, hc ▸ decodeFrom_three (n := c.toNat) (by omega) (by omega) (by omega) i rest⟩
  · exact ⟨_, hc ▸ decodeFrom_four (n := c.toNat) (by omega) (by omega) i rest⟩

theorem decodeFrom_encode (cs : List Char) (i : Nat) : decodeFrom i (encode cs) = .ok cs := by
  induction cs generalizing i with
  | nil => rfl
  | cons c cs ih =>
      obtain ⟨j, hj⟩ := decodeFrom_encodeChar c i (encode cs)
      show decodeFrom i (String.utf8EncodeChar c ++ encode cs) = _
      rw [hj, ih j]
      rfl

/-- A text in bytes is read back. -/
theorem decode_encode (cs : List Char) : decode (encode cs) = .ok (String.ofList cs) := by
  rw [decode, decodeFrom_encode]
  rfl

end NodeFencing.Utf8

namespace NodeFencing.Form

theorem forall_byte {P : UInt8 → Prop} (h : ∀ n : Fin 256, P (UInt8.ofNat n.val)) (b : UInt8) :
    P b :=
  UInt8.ofNat_toNat (x := b) ▸ h ⟨b.toNat, b.toNat_lt⟩

/-- What holds of the characters of every byte holds of an encoded text. -/
theorem of_mem_encodeChars {p : Char → Bool} (h : ∀ b, (encodeByte b).all p = true)
    (cs : List Char) : ∀ c ∈ encodeChars cs, p c = true := by
  intro c hc
  obtain ⟨b, -, hb⟩ := List.mem_flatMap.mp hc
  exact List.all_eq_true.mp (h b) c hb

/-- Neither of the signs that separate the parts of a query stands in an encoded text. -/
theorem ne_separator_of_mem {cs : List Char} {c : Char} (h : c ∈ encodeChars cs) :
    c ≠ '&' ∧ c ≠ '=' := by
  have hbyte : ∀ b, (encodeByte b).all (fun c => c != '&' && c != '=') = true :=
    forall_byte (by decide +kernel)
  simpa using of_mem_encodeChars hbyte cs c h

/-- A byte that stands for itself is no sign that stands for something else. -/
theorem ofNat_of_isPlain : ∀ b : UInt8, isPlain b = true →
    Char.ofNat b.toNat ≠ '+' ∧ Char.ofNat b.toNat ≠ '%' ∧ (Char.ofNat b.toNat).toNat = b.toNat ∧
      b.toNat < 0x80 :=
  forall_byte (by decide +kernel)

/-- One byte is read back, and what follows it is read on. -/
theorem bytes?_encodeByte (b : UInt8) (rest : List Char) :
    bytes? (encodeByte b ++ rest) = (b :: ·) <$> bytes? rest := by
  unfold encodeByte
  split
  · next hplain =>
    obtain ⟨hplus, hpercent, hnumber, hsmall⟩ := ofNat_of_isPlain b hplain
    rw [List.singleton_append, bytes?, hnumber, if_pos hsmall, UInt8.ofNat_toNat]
    · exact hplus
    · exact fun _ _ _ h => absurd h hpercent
  split
  · next hspace => rw [hspace]; rfl
  · have hhigh : Hex.value? (Hex.upper (b.toNat / 16)) = some (b.toNat / 16) :=
      Hex.value?_upper (by have := b.toNat_lt; omega)
    have hlow : Hex.value? (Hex.upper (b.toNat % 16)) = some (b.toNat % 16) :=
      Hex.value?_upper (by omega)
    show bytes? ('%' :: Hex.upper (b.toNat / 16) :: Hex.upper (b.toNat % 16) :: rest) = _
    rw [bytes?, hhigh, hlow]
    show (UInt8.ofNat (b.toNat / 16 * 16 + b.toNat % 16) :: ·) <$> bytes? rest = _
    rw [Nat.div_add_mod', UInt8.ofNat_toNat]

theorem bytes?_flatMap (bs : List UInt8) : bytes? (bs.flatMap encodeByte) = some bs := by
  induction bs with
  | nil => rfl
  | cons b bs ih =>
      rw [List.flatMap_cons, bytes?_encodeByte, ih]
      rfl

/-- A text in form encoding is read back. -/
theorem decode_encodeChars (cs : List Char) :
    decode (encodeChars cs) = some (String.ofList cs) := by
  rw [decode, encodeChars, bytes?_flatMap]
  show (Utf8.decode (Utf8.encode cs)).toOption = _
  rw [Utf8.decode_encode]
  rfl

end NodeFencing.Form

namespace NodeFencing.Query

/-- One pair as it is written, after its ampersand. -/
def piece (p : String × String) : List Char :=
  Form.encodeChars p.1.toList ++ '=' :: Form.encodeChars p.2.toList

theorem chars_cons (p : String × String) (q : Query) :
    chars (p :: q) = '&' :: (piece p ++ chars q) :=
  rfl

theorem mem_piece {p : String × String} {c : Char} :
    c ∈ piece p → c = '=' ∨ ∃ cs, c ∈ Form.encodeChars cs := by
  intro h
  rcases List.mem_append.mp h with h | h
  · exact .inr ⟨_, h⟩
  · exact (List.mem_cons.mp h).imp id fun h => ⟨_, h⟩

theorem not_mem_piece (p : String × String) : '&' ∉ piece p := by
  intro h
  rcases mem_piece h with h | ⟨cs, h⟩
  · exact absurd h (by decide)
  · exact (Form.ne_separator_of_mem h).1 rfl

/-- Characters other than an ampersand belong to the piece that they stand before. -/
theorem pieces_append {start rest first : List Char} {more : List (List Char)}
    (h : '&' ∉ start) (hrest : pieces rest = first :: more) :
    pieces (start ++ rest) = (start ++ first) :: more := by
  induction start with
  | nil => exact hrest
  | cons c cs ih =>
      have hc : c ≠ '&' := fun hc => h (hc ▸ List.mem_cons_self)
      rw [List.cons_append, pieces, ih fun hmem => h (List.mem_cons_of_mem _ hmem)]
      · rfl
      · exact hc

theorem pieces_chars (q : Query) : pieces q.chars = [] :: q.map piece := by
  induction q with
  | nil => rfl
  | cons p q ih =>
      rw [chars_cons, pieces, pieces_append (not_mem_piece p) ih, List.append_nil, List.map_cons]

/-- One pair is read back, up to its first equals sign and after it. -/
theorem pair?_piece (p : String × String) : pair? (piece p) = some p := by
  have hname : ∀ c ∈ Form.encodeChars p.1.toList, decide (c ≠ '=') = true := fun c hc =>
    decide_eq_true (Form.ne_separator_of_mem hc).2
  have htake : (piece p).takeWhile (· ≠ '=') = Form.encodeChars p.1.toList := by
    rw [piece, List.takeWhile_append_of_pos hname]
    simp
  have hdrop : (piece p).dropWhile (· ≠ '=') = '=' :: Form.encodeChars p.2.toList := by
    rw [piece, List.dropWhile_append_of_pos hname]
    simp
  rw [pair?, htake, hdrop, List.drop_one, List.tail_cons, Form.decode_encodeChars,
    Form.decode_encodeChars, String.ofList_toList, String.ofList_toList]
  rfl

theorem mapM_pair?_map (q : Query) : (q.map piece).mapM pair? = some q := by
  induction q with
  | nil => rfl
  | cons p q ih =>
      rw [List.map_cons, List.mapM_cons, pair?_piece, ih]
      rfl

/-- A query is read back: the same pairs in the same order. -/
theorem parse_chars (q : Query) : parse q.chars = some q := by
  have hkept : (q.map piece).filter (fun piece => !piece.isEmpty) = q.map piece := by
    refine List.filter_eq_self.mpr fun cs hcs => ?_
    obtain ⟨p, -, rfl⟩ := List.mem_map.mp hcs
    simp [piece]
  rw [parse, pieces_chars, List.filter_cons_of_neg (by decide), hkept, mapM_pair?_map]

end NodeFencing.Query
