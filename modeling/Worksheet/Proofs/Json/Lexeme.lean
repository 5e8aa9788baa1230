import Worksheet.Json.Printer
import Worksheet.Json.Reader

/-! # Single tokens

  Text, numbers and words are cut off as one token each, and the token holds what was written: a
  text comes back character by character from its escapes (`Json.tokens?_quote`), and the digits of
  a number stand for it (`Json.number?_decimal`). A word or a number has to end where what follows
  begins, so nothing may follow that either of them could go on with.
-/

namespace Worksheet

/-! ### Digits -/

namespace Digits

theorem isDigit_of_mem_decimal {n : Nat} {c : Char} (h : c ∈ decimal n) : c.isDigit :=
  Nat.isDigit_of_mem_toDigits (by decide) (by decide) h

theorem value?_digitChar {n : Nat} (h : n < 10) : value? n.digitChar = some n := by
  revert n
  decide

theorem value?_hex {n : Nat} (h : n < 16) : value? (hex n) = some n := by
  revert n
  decide

/-- One more digit behind others. -/
theorem number?_concat {base n d : Nat} {digits : Text} {c : Char}
    (hdigits : number? base digits = some n) (hc : value? c = some d) (hd : d < base) :
    number? base (digits ++ [c]) = some (base * n + d) := by
  unfold number? at hdigits ⊢
  split at hdigits
  · exact nomatch hdigits
  · rw [if_neg (by simp), List.foldlM_append, hdigits]
    simp [hc, hd]

/-- The decimal digits of a number stand for it. -/
theorem number?_decimal (n : Nat) : number? 10 (decimal n) = some n := by
  unfold decimal
  induction n using Nat.strongRecOn with
  | _ n ih =>
    by_cases hn : n < 10
    · rw [Nat.toDigits_of_lt_base hn]
      simp [number?, value?_digitChar hn, hn]
    · -- the last digit stands behind those of a tenth of the number
      have hfront := ih (n / 10) (by omega)
      have hlast : n % 10 < 10 := Nat.mod_lt _ (by decide)
      rw [Nat.toDigits_of_base_le (by decide) (Nat.le_of_not_lt hn),
        number?_concat hfront (value?_digitChar hlast) hlast, Nat.div_add_mod]

/-- Only the digits of zero begin with a zero. -/
theorem head?_decimal_ne {n : Nat} (h : 0 < n) : (decimal n).head? ≠ some '0' := by
  unfold decimal
  induction n using Nat.strongRecOn with
  | _ n ih =>
    by_cases hn : n < 10
    · have hdigit : ∀ d < 10, 0 < d → [d.digitChar].head? ≠ some '0' := by decide
      rw [Nat.toDigits_of_lt_base hn]
      exact hdigit n hn h
    · have hfront := ih (n / 10) (by omega) (by omega)
      rw [Nat.toDigits_of_base_le (by decide) (Nat.le_of_not_lt hn)]
      cases hdigits : Nat.toDigits 10 (n / 10) with
      | nil => exact absurd hdigits Nat.toDigits_ne_nil
      | cons d rest => rwa [hdigits] at hfront

/-- Two digits of base sixteen behind two zeros. -/
theorem number?_hex {n m : Nat} (hn : n < 16) (hm : m < 16) :
    number? 16 ['0', '0', hex n, hex m] = some (16 * n + m) := by
  have hzeros : number? 16 ['0', '0'] = some 0 := by decide
  have hfirst := number?_concat hzeros (value?_hex hn) hn
  have hsecond := number?_concat hfirst (value?_hex hm) hm
  simpa using hsecond

end Digits

namespace Json

/-! ### Strings -/

/-- A character is written with a backslash and a letter, with a backslash and its number, or as it
    is. -/
theorem escape_cases (c : Char) :
    (∃ e, escape c = ['\\', e] ∧ escaped? e = some c) ∨
      (c.toNat < 0x20 ∧
        escape c = ['\\', 'u', '0', '0', Digits.hex (c.toNat / 16), Digits.hex (c.toNat % 16)]) ∨
      (0x20 ≤ c.toNat ∧ c ≠ '"' ∧ c ≠ '\\' ∧ escape c = [c]) := by
  unfold escape
  split
  case h_8 hquote hbackslash _ _ _ _ _ =>
    right
    split
    case isTrue hsmall => exact .inl ⟨hsmall, rfl⟩
    case isFalse hlarge => exact .inr ⟨Nat.le_of_not_lt hlarge, hquote, hbackslash, rfl⟩
  all_goals exact .inl ⟨_, rfl, rfl⟩

theorem hex_ne {n : Nat} (h : n < 16) : Digits.hex n ≠ '"' ∧ Digits.hex n ≠ '\\' := by
  revert n
  decide

theorem splitQuoted?_cons {c : Char} (hquote : c ≠ '"') (hbackslash : c ≠ '\\') (s : Text) :
    splitQuoted? (c :: s) = (splitQuoted? s).map fun (raw, rest) => (c :: raw, rest) := by
  rw [splitQuoted?]
  · exact hquote
  · intro _ _ h _
    exact hbackslash h

/-- The string goes on behind every character that is written in it. -/
theorem splitQuoted?_escape_append (c : Char) (s : Text) :
    splitQuoted? (escape c ++ s) =
      (splitQuoted? s).map fun (raw, rest) => (escape c ++ raw, rest) := by
  rcases escape_cases c with ⟨e, heq, -⟩ | ⟨hsmall, heq⟩ | ⟨-, hquote, hbackslash, heq⟩
  · rw [heq]
    rfl
  · -- neither digit of the number is a quote or a backslash
    have hhigh := hex_ne (show c.toNat / 16 < 16 by omega)
    have hlow := hex_ne (Nat.mod_lt c.toNat (show 16 > 0 by decide))
    rw [heq]
    simp only [List.cons_append, List.nil_append]
    rw [splitQuoted?, splitQuoted?_cons (by decide) (by decide),
      splitQuoted?_cons (by decide) (by decide), splitQuoted?_cons hhigh.1 hhigh.2,
      splitQuoted?_cons hlow.1 hlow.2]
    simp only [Option.map_map]
    rfl
  · rw [heq]
    exact splitQuoted?_cons hquote hbackslash s

theorem splitQuoted?_flatMap_escape (s rest : Text) :
    splitQuoted? (s.flatMap escape ++ '"' :: rest) = some (s.flatMap escape, rest) := by
  induction s with
  | nil => rfl
  | cons c s ih =>
    rw [List.flatMap_cons, List.append_assoc, splitQuoted?_escape_append, ih]
    rfl

/-- A character comes back from what is written for it. -/
theorem codePoints?_escape_append (c : Char) (raw : Text) :
    codePoints? (escape c ++ raw) = (codePoints? raw).map (c.toNat :: ·) := by
  rcases escape_cases c with ⟨e, heq, he⟩ | ⟨hsmall, heq⟩ | ⟨hlarge, -, hne, heq⟩
  · rw [heq, List.cons_append, List.cons_append, List.nil_append, codePoints?]
    · rw [he]
      exact Option.map_eq_bind.symm
    · -- no number follows, since `u` is none of the letters
      rintro _ _ _ _ _ rfl -
      exact nomatch he
  · have hlow := Nat.mod_lt c.toNat (show 16 > 0 by decide)
    rw [heq]
    simp only [List.cons_append, List.nil_append]
    rw [codePoints?, Digits.number?_hex (by omega) hlow, Nat.div_add_mod]
    exact Option.map_eq_bind.symm
  · rw [heq, List.cons_append, List.nil_append, codePoints?, if_neg]
    · simp only [hne, or_false]
      omega
    · intro _ _ _ _ _ h _
      exact hne h
    · intro _ _ h _
      exact hne h

theorem codePoints?_flatMap_escape (s : Text) :
    codePoints? (s.flatMap escape) = some (s.map Char.toNat) := by
  induction s with
  | nil => rfl
  | cons c s ih =>
    rw [List.flatMap_cons, codePoints?_escape_append, ih]
    rfl

/-- No character is half of a surrogate pair. -/
theorem not_surrogate (c : Char) : ¬ (0xD800 ≤ c.toNat ∧ c.toNat ≤ 0xDFFF) := by
  have hvalid : c.toNat < 0xD800 ∨ 0xDFFF < c.toNat ∧ c.toNat < 0x110000 := c.valid
  omega

theorem joinSurrogates?_map_toNat (s : Text) : joinSurrogates? (s.map Char.toNat) = some s := by
  induction s with
  | nil => rfl
  | cons c s ih =>
    have hc := not_surrogate c
    cases s with
    | nil => simp [joinSurrogates?, hc]
    | cons d s =>
      -- the first character is not the first half of a pair, and not the second half either
      rw [List.map_cons, List.map_cons, joinSurrogates?, if_neg (by omega), if_neg (by omega),
        ← List.map_cons, ih, Char.ofNat_toNat]
      rfl

/-! ### Numbers -/

theorem isNumberChar_of_isDigit {c : Char} (h : c.isDigit) : isNumberChar c := by
  rw [isNumberChar, h, Bool.true_or]

theorem all_isNumberChar_of_isDigit {s : Text} (h : s.all Char.isDigit) : s.all isNumberChar := by
  rw [List.all_eq_true] at h ⊢
  intro c hc
  exact isNumberChar_of_isDigit (h c hc)

theorem all_isNumberChar_of_isExponent {s : Text} (h : isExponent s) : s.all isNumberChar := by
  unfold isExponent at h
  split at h
  case h_1 => rfl
  case h_2 e s =>
    simp only [Bool.and_eq_true, Bool.or_eq_true, decide_eq_true_eq] at h
    obtain ⟨⟨he, -⟩, hdigits⟩ := h
    have hletter : isNumberChar e := by
      rcases he with rfl | rfl <;> decide
    have hplus : isNumberChar '+' := by decide
    have hminus : isNumberChar '-' := by decide
    -- the sign in front of the digits, if there is one, is part of a number as well
    split at hdigits
    all_goals simpa [hletter, hplus, hminus] using all_isNumberChar_of_isDigit hdigits

theorem all_isNumberChar_of_isNumberTail {s : Text} (h : isNumberTail s) : s.all isNumberChar := by
  unfold isNumberTail at h
  split at h
  case h_1 s =>
    have hdigits := all_isNumberChar_of_isDigit (List.all_takeWhile (l := s) (p := Char.isDigit))
    have hexponent := all_isNumberChar_of_isExponent (Bool.and_eq_true_iff.1 h).2
    rw [← List.takeWhile_append_dropWhile (p := Char.isDigit) (l := s), List.all_cons,
      List.all_append, hdigits, hexponent]
    rfl
  case h_2 => exact all_isNumberChar_of_isExponent h

theorem begins_of_isNumberTail {s : Text} (hdigits : s.takeWhile Char.isDigit ≠ [])
    (htail : isNumberTail (s.dropWhile Char.isDigit)) :
    ∃ c rest, s = c :: rest ∧ c.isDigit ∧ rest.all isNumberChar := by
  cases s with
  | nil => exact absurd rfl hdigits
  | cons c rest =>
    by_cases hc : c.isDigit
    · refine ⟨c, rest, rfl, hc, ?_⟩
      rw [List.dropWhile_cons_of_pos hc] at htail
      rw [← List.takeWhile_append_dropWhile (p := Char.isDigit) (l := rest), List.all_append,
        all_isNumberChar_of_isDigit List.all_takeWhile, all_isNumberChar_of_isNumberTail htail]
      rfl
    · exact absurd (List.takeWhile_cons_of_neg hc) hdigits

/-- A number begins with a minus sign or a digit, and only what a number can hold follows. -/
theorem begins_of_number? {literal : Text} {v : Json} (h : number? literal = some v) :
    ∃ c rest, literal = c :: rest ∧ (c = '-' ∨ c.isDigit) ∧ rest.all isNumberChar := by
  unfold number? at h
  extract_lets magnitude digits tail at h
  split at h
  case isTrue => exact nomatch h
  case isFalse hvalid =>
    simp only [Bool.or_eq_true, not_or] at hvalid
    obtain ⟨⟨hdigits, -⟩, htail⟩ := hvalid
    obtain ⟨c, rest, heq, hc, hrest⟩ :
        ∃ c rest, magnitude = c :: rest ∧ c.isDigit ∧ rest.all isNumberChar :=
      begins_of_isNumberTail (by simpa [digits] using hdigits) (by simpa using htail)
    clear h htail hdigits
    subst magnitude
    -- the magnitude is what follows the sign
    split at heq
    case h_1 s =>
      refine ⟨'-', s, rfl, .inl rfl, ?_⟩
      rw [heq, List.all_cons, isNumberChar_of_isDigit hc, hrest]
      rfl
    case h_2 => exact ⟨c, rest, heq, .inr hc, hrest⟩

/-- Digits are a natural number, unless zeros stand in front. -/
theorem number?_of_isDigit {s : Text} (hne : s ≠ []) (hdigits : ∀ c ∈ s, c.isDigit)
    (hzero : s.head? = some '0' → s.length = 1) :
    number? s = (Digits.number? 10 s).map .nat := by
  have htake : s.takeWhile Char.isDigit = s := by
    rw [← List.append_nil s, List.takeWhile_append_of_pos hdigits]
    rfl
  have hdrop : s.dropWhile Char.isDigit = [] := by
    rw [← List.append_nil s, List.dropWhile_append_of_pos hdigits]
    rfl
  unfold number?
  split
  case h_1 rest =>
    have hminus := hdigits '-' List.mem_cons_self
    exact absurd hminus (by decide)
  case h_2 =>
    simp only [htake, hdrop, if_true]
    rw [if_neg]
    simpa [hne, isNumberTail, isExponent] using hzero

theorem number?_decimal (n : Nat) : number? (decimal n) = some (.nat n) := by
  have hne : decimal n ≠ [] := Nat.toDigits_ne_nil
  have hzero : (decimal n).head? = some '0' → (decimal n).length = 1 := by
    intro hhead
    rcases Nat.eq_zero_or_pos n with rfl | hn
    · rfl
    · exact absurd hhead (Digits.head?_decimal_ne hn)
  rw [number?_of_isDigit hne (fun _ => Digits.isDigit_of_mem_decimal) hzero, Digits.number?_decimal]
  rfl

/-! ### Cutting off a token -/

theorem tokens?_blank {c : Char} (h : isBlankChar c) (s : Text) : tokens? (c :: s) = tokens? s := by
  rw [tokens?, if_pos h]

theorem isBlankChar_of_punctuation? {c : Char} {token : Token} (h : punctuation? c = some token) :
    isBlankChar c = false := by
  unfold punctuation? at h
  split at h
  case h_7 => exact nomatch h
  all_goals rfl

theorem tokens?_punctuation {c : Char} {token : Token} (h : punctuation? c = some token)
    (s : Text) : tokens? (c :: s) = (tokens? s).map (token :: ·) := by
  rw [tokens?, if_neg (by simp [isBlankChar_of_punctuation? h])]
  simp only [h]

/-- What is written between quotes is read as the text it was written for. -/
theorem tokens?_quote (s rest : Text) :
    tokens? (quote s ++ rest) = (tokens? rest).map (.string (some s) :: ·) := by
  have hquote : quote s ++ rest = '"' :: (s.flatMap escape ++ '"' :: rest) := by
    simp [quote]
  -- a quote is neither a blank nor punctuation, so a string begins
  rw [hquote, tokens?, if_neg (by decide)]
  simp only [show punctuation? '"' = none by decide, if_true]
  split
  case h_1 h =>
    rw [splitQuoted?_flatMap_escape] at h
    cases h
  case h_2 raw behind h =>
    rw [splitQuoted?_flatMap_escape] at h
    cases h
    rw [codePoints?_flatMap_escape]
    show ((tokens? rest).bind fun tokens =>
      some (.string (joinSurrogates? (s.map Char.toNat)) :: tokens)) = _
    rw [joinSurrogates?_map_toNat]
    exact Option.map_eq_bind.symm

/-- Words and numbers are told apart from all other tokens by their first character. -/
theorem begins_scalar {c : Char} (h : c = '-' ∨ c.isDigit ∨ c.isAlpha) :
    isBlankChar c = false ∧ punctuation? c = none ∧ c ≠ '"' := by
  refine ⟨?_, ?_, ?_⟩
  · cases hblank : isBlankChar c with
    | false => rfl
    | true =>
      simp only [isBlankChar, Bool.or_eq_true, decide_eq_true_eq] at hblank
      rcases hblank with ((rfl | rfl) | rfl) | rfl <;> exact absurd h (by decide)
  · unfold punctuation?
    split
    case h_7 => rfl
    all_goals exact absurd h (by decide)
  · rintro rfl
    exact absurd h (by decide)

theorem isAlpha_eq_false {c : Char} (h : c = '-' ∨ c.isDigit) : c.isAlpha = false := by
  rcases h with rfl | h
  · rfl
  · -- digits stand before all letters
    have hdigit : c.val ≤ '9'.val := of_decide_eq_true (Bool.and_eq_true_iff.1 h).2
    cases halpha : c.isAlpha with
    | false => rfl
    | true =>
      rcases Bool.or_eq_true_iff.1 halpha with hupper | hlower
      · have hletter : 'A'.val ≤ c.val := (of_decide_eq_true hupper).1
        exact absurd (UInt32.le_trans hletter hdigit) (by decide)
      · have hletter : 'a'.val ≤ c.val := of_decide_eq_true (Bool.and_eq_true_iff.1 hlower).1
        exact absurd (UInt32.le_trans hletter hdigit) (by decide)

/-- A text of such characters is cut off whole, where what follows does not begin with one. -/
theorem takeWhile_append_of_head? {p : Char → Bool} {s rest : Text} (hs : s.all p)
    (hrest : ∀ c ∈ rest.head?, ¬ p c) :
    (s ++ rest).takeWhile p = s ∧ (s ++ rest).dropWhile p = rest := by
  have hs := List.all_eq_true.1 hs
  rw [List.takeWhile_append_of_pos hs, List.dropWhile_append_of_pos hs]
  cases rest with
  | nil => simp
  | cons c rest =>
    have hc := hrest c rfl
    simp [hc]

theorem tokens?_number {literal : Text} {v : Json} (h : number? literal = some v) {rest : Text}
    (hrest : ∀ c ∈ rest.head?, ¬ isNumberChar c) :
    tokens? (literal ++ rest) = (tokens? rest).map (.scalar v :: ·) := by
  obtain ⟨c, s, rfl, hc, hs⟩ := begins_of_number? h
  obtain ⟨htake, hdrop⟩ := takeWhile_append_of_head? hs hrest
  obtain ⟨hblank, hpunctuation, hquote⟩ := begins_scalar (hc.imp_right .inl)
  rw [List.cons_append, tokens?, if_neg (by simp [hblank])]
  simp only [hpunctuation]
  rw [if_neg hquote, if_neg (by simp [isAlpha_eq_false hc]), htake, hdrop, h]
  exact Option.map_eq_bind.symm

theorem begins_of_word? {word : Text} {v : Json} (h : word? word = some v) :
    ∃ c rest, word = c :: rest ∧ c.isAlpha ∧ rest.all Char.isAlpha := by
  unfold word? at h
  split at h
  case isTrue hnull => exact ⟨_, _, hnull, by decide, by decide⟩
  case isFalse =>
    split at h
    case isTrue htrue => exact ⟨_, _, htrue, by decide, by decide⟩
    case isFalse =>
      split at h
      case isTrue hfalse => exact ⟨_, _, hfalse, by decide, by decide⟩
      case isFalse => exact nomatch h

theorem tokens?_word {word : Text} {v : Json} (h : word? word = some v) {rest : Text}
    (hrest : ∀ c ∈ rest.head?, ¬ c.isAlpha) :
    tokens? (word ++ rest) = (tokens? rest).map (.scalar v :: ·) := by
  obtain ⟨c, s, rfl, hc, hs⟩ := begins_of_word? h
  obtain ⟨htake, hdrop⟩ := takeWhile_append_of_head? hs hrest
  obtain ⟨hblank, hpunctuation, hquote⟩ := begins_scalar (.inr (.inr hc))
  rw [List.cons_append, tokens?, if_neg (by simp [hblank])]
  simp only [hpunctuation]
  rw [if_neg hquote, if_pos hc, htake, hdrop, h]
  exact Option.map_eq_bind.symm

end Json

end Worksheet
