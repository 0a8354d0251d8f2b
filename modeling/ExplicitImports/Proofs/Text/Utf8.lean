import ExplicitImports.Text.Utf8
import Mathlib.Data.List.Basic

/-!
# UTF-8 there and back

Decoding is the inverse of encoding in both directions:

* `decode?_encode` — a text is read back from its bytes.
* `encode_of_decode?` — bytes that are UTF-8 are the bytes of the text they spell,
  so that no text has a second spelling.

The decoder is followed byte by byte.  The lemmas on `first` and `step` say what one
byte does, by the range of its number.
-/

namespace ExplicitImports.Utf8

section Step

variable {b : UInt8}

theorem first_of_ascii (h : b.toNat < 0x80) :
    first b = ([some (Char.ofNat b.toNat)], .start) := by
  unfold first
  rw [if_pos (UInt8.lt_iff_toNat_lt.2 h)]

/-- A byte that begins no character. -/
theorem first_of_broken (h : 0x80 ≤ b.toNat ∧ b.toNat < 0xC2 ∨ 0xF5 ≤ b.toNat) :
    first b = ([none], .start) := by
  unfold first
  simp only [UInt8.lt_iff_toNat_lt, UInt8.reduceToNat]
  rcases h with h | h
  · rw [if_neg (by omega), if_pos (by omega)]
  · rw [if_neg (by omega), if_neg (by omega), if_neg (by omega), if_neg (by omega),
      if_neg (by omega)]

theorem first_of_two (h : 0xC2 ≤ b.toNat ∧ b.toNat < 0xE0) :
    first b = ([], .within 0 0x80 0xBF (b.toNat - 0xC0)) := by
  unfold first
  simp only [UInt8.lt_iff_toNat_lt, UInt8.reduceToNat]
  rw [if_neg (by omega), if_neg (by omega), if_pos (by omega)]

theorem first_of_three (h : 0xE0 ≤ b.toNat ∧ b.toNat < 0xF0) :
    first b = ([], .within 1 (if b.toNat = 0xE0 then 0xA0 else 0x80)
      (if b.toNat = 0xED then 0x9F else 0xBF) (b.toNat - 0xE0)) := by
  unfold first
  simp only [UInt8.lt_iff_toNat_lt, ← UInt8.toNat_inj, UInt8.reduceToNat]
  rw [if_neg (by omega), if_neg (by omega), if_neg (by omega), if_pos (by omega)]

theorem first_of_four (h : 0xF0 ≤ b.toNat ∧ b.toNat < 0xF5) :
    first b = ([], .within 2 (if b.toNat = 0xF0 then 0x90 else 0x80)
      (if b.toNat = 0xF4 then 0x8F else 0xBF) (b.toNat - 0xF0)) := by
  unfold first
  simp only [UInt8.lt_iff_toNat_lt, ← UInt8.toNat_inj, UInt8.reduceToNat]
  rw [if_neg (by omega), if_neg (by omega), if_neg (by omega), if_neg (by omega),
    if_pos (by omega)]

variable {low high : UInt8} {value : Nat}

/-- The last byte of a character. -/
theorem step_within_zero (h : low.toNat ≤ b.toNat ∧ b.toNat ≤ high.toNat) :
    step (.within 0 low high value) b =
      ([some (Char.ofNat (value * 64 + (b.toNat - 0x80)))], .start) := by
  simp only [step]
  rw [if_pos (by simpa only [UInt8.le_iff_toNat_le] using h)]

/-- A byte in the middle of a character. -/
theorem step_within_succ {owed : Nat} (h : low.toNat ≤ b.toNat ∧ b.toNat ≤ high.toNat) :
    step (.within (owed + 1) low high value) b =
      ([], .within owed 0x80 0xBF (value * 64 + (b.toNat - 0x80))) := by
  simp only [step]
  rw [if_pos (by simpa only [UInt8.le_iff_toNat_le] using h)]

/-- A byte that does not go on with the character at hand. -/
theorem step_within_of_not {owed : Nat} (h : ¬ (low.toNat ≤ b.toNat ∧ b.toNat ≤ high.toNat)) :
    step (.within owed low high value) b = (none :: (first b).1, (first b).2) := by
  simp only [step]
  rw [if_neg (by simpa only [UInt8.le_iff_toNat_le] using h)]

end Step

theorem run_within_cons (owed : Nat) (low high : UInt8) (value : Nat) (b : UInt8) (rest : Bytes) :
    run (.within owed low high value) (b :: rest) =
      (step (.within owed low high value) b).1 ++
        run (step (.within owed low high value) b).2 rest := rfl

section Encode

variable {c : Char}

theorem utf8EncodeChar_of_one (h : c.toNat ≤ 0x7F) :
    String.utf8EncodeChar c = [UInt8.ofNat c.toNat] := by
  show (if c.toNat ≤ 0x7F then _ else _) = _
  rw [if_pos h]
  rfl

theorem utf8EncodeChar_of_two (hlow : 0x7F < c.toNat) (hhigh : c.toNat ≤ 0x7FF) :
    String.utf8EncodeChar c =
      [UInt8.ofNat (c.toNat / 64 % 0x20 + 0xC0), UInt8.ofNat (c.toNat % 0x40 + 0x80)] := by
  show (if c.toNat ≤ 0x7F then _ else if c.toNat ≤ 0x7FF then _ else _) = _
  rw [if_neg (by omega), if_pos hhigh]
  rfl

theorem utf8EncodeChar_of_three (hlow : 0x7FF < c.toNat) (hhigh : c.toNat ≤ 0xFFFF) :
    String.utf8EncodeChar c =
      [UInt8.ofNat (c.toNat / 4096 % 0x10 + 0xE0), UInt8.ofNat (c.toNat / 64 % 0x40 + 0x80),
        UInt8.ofNat (c.toNat % 0x40 + 0x80)] := by
  show (if c.toNat ≤ 0x7F then _ else if c.toNat ≤ 0x7FF then _
    else if c.toNat ≤ 0xFFFF then _ else _) = _
  rw [if_neg (by omega), if_neg (by omega), if_pos hhigh]
  rfl

theorem utf8EncodeChar_of_four (hlow : 0xFFFF < c.toNat) :
    String.utf8EncodeChar c =
      [UInt8.ofNat (c.toNat / 262144 % 0x08 + 0xF0), UInt8.ofNat (c.toNat / 4096 % 0x40 + 0x80),
        UInt8.ofNat (c.toNat / 64 % 0x40 + 0x80), UInt8.ofNat (c.toNat % 0x40 + 0x80)] := by
  show (if c.toNat ≤ 0x7F then _ else if c.toNat ≤ 0x7FF then _
    else if c.toNat ≤ 0xFFFF then _ else _) = _
  rw [if_neg (by omega), if_neg (by omega), if_neg (by omega)]
  rfl

/-- The encoding of a character is read as this character. -/
theorem run_utf8EncodeChar (c : Char) (rest : Bytes) :
    run .start (String.utf8EncodeChar c ++ rest) = some c :: run .start rest := by
  have hvalid : c.toNat < 0xD800 ∨ 0xDFFF < c.toNat ∧ c.toNat < 0x110000 := c.valid
  have hbyte {n : Nat} (h : n < 256) : (UInt8.ofNat n).toNat = n := UInt8.toNat_ofNat_of_lt' h
  have hchar {n : Nat} (h : n = c.toNat) : Char.ofNat n = c := by rw [h, Char.ofNat_toNat]
  rcases Nat.lt_or_ge 0x7F c.toNat with hone | hone
  · rcases Nat.lt_or_ge 0x7FF c.toNat with htwo | htwo
    · rcases Nat.lt_or_ge 0xFFFF c.toNat with hthree | hthree
      · rw [utf8EncodeChar_of_four hthree]
        have hlead := hbyte (n := c.toNat / 262144 % 0x08 + 0xF0) (by omega)
        have hsecond := hbyte (n := c.toNat / 4096 % 0x40 + 0x80) (by omega)
        have hthird := hbyte (n := c.toNat / 64 % 0x40 + 0x80) (by omega)
        have hlast := hbyte (n := c.toNat % 0x40 + 0x80) (by omega)
        simp only [List.cons_append, List.nil_append, run_start_cons]
        rw [first_of_four (by omega)]
        simp only [List.nil_append, run_within_cons]
        rw [step_within_succ (by split <;> split <;> simp only [UInt8.reduceToNat] <;> omega)]
        simp only [List.nil_append, run_within_cons]
        rw [step_within_succ (by simp only [UInt8.reduceToNat]; omega)]
        simp only [List.nil_append, run_within_cons]
        rw [step_within_zero (by simp only [UInt8.reduceToNat]; omega)]
        simp only [List.cons_append, List.nil_append]
        rw [hchar (by omega)]
      · rw [utf8EncodeChar_of_three htwo hthree]
        have hlead := hbyte (n := c.toNat / 4096 % 0x10 + 0xE0) (by omega)
        have hsecond := hbyte (n := c.toNat / 64 % 0x40 + 0x80) (by omega)
        have hlast := hbyte (n := c.toNat % 0x40 + 0x80) (by omega)
        simp only [List.cons_append, List.nil_append, run_start_cons]
        rw [first_of_three (by omega)]
        simp only [List.nil_append, run_within_cons]
        rw [step_within_succ (by split <;> split <;> simp only [UInt8.reduceToNat] <;> omega)]
        simp only [List.nil_append, run_within_cons]
        rw [step_within_zero (by simp only [UInt8.reduceToNat]; omega)]
        simp only [List.cons_append, List.nil_append]
        rw [hchar (by omega)]
    · rw [utf8EncodeChar_of_two hone htwo]
      have hlead := hbyte (n := c.toNat / 64 % 0x20 + 0xC0) (by omega)
      have hlast := hbyte (n := c.toNat % 0x40 + 0x80) (by omega)
      simp only [List.cons_append, List.nil_append, run_start_cons]
      rw [first_of_two (by omega)]
      simp only [List.nil_append, run_within_cons]
      rw [step_within_zero (by simp only [UInt8.reduceToNat]; omega)]
      simp only [List.cons_append, List.nil_append]
      rw [hchar (by omega)]
  · rw [utf8EncodeChar_of_one hone]
    have hlead := hbyte (n := c.toNat) (by omega)
    simp only [List.cons_append, List.nil_append, run_start_cons]
    rw [first_of_ascii (by omega)]
    simp only [List.cons_append, List.nil_append]
    rw [hchar (by omega)]

/-- Bytes spell a text when each of their pieces is one of its characters. -/
theorem decode?_eq_some_iff {bytes : Bytes} {text : List Char} :
    decode? bytes = some text ↔ run .start bytes = text.map some := by
  unfold decode? pieces
  generalize run .start bytes = found
  induction found generalizing text with
  | nil =>
      cases text with
      | nil => simp
      | cons c text => simp
  | cons piece found ih =>
      cases piece with
      | none =>
          cases text with
          | nil => simp
          | cons c text => simp
      | some c =>
          cases text with
          | nil => simp [Option.bind_eq_some_iff]
          | cons d text => simp [Option.bind_eq_some_iff, ih, and_comm]

/-- A text is read back from its bytes. -/
theorem decode?_encode (text : List Char) : decode? (encode text) = some text := by
  rw [decode?_eq_some_iff]
  induction text with
  | nil => rfl
  | cons c text ih =>
      show run .start (String.utf8EncodeChar c ++ encode text) = _
      rw [run_utf8EncodeChar, ih, List.map_cons]

end Encode

section Decode

variable {text : List Char} {low high : UInt8} {value owed : Nat} {bytes : Bytes}

/-- Inside a character of a text the next byte is there and within the bounds. -/
theorem exists_of_run_within (h : run (.within owed low high value) bytes = text.map some) :
    ∃ b rest, bytes = b :: rest ∧ (low.toNat ≤ b.toNat ∧ b.toNat ≤ high.toNat) := by
  cases bytes with
  | nil =>
      cases text with
      | nil => cases h
      | cons c text => cases h
  | cons b rest =>
      refine ⟨b, rest, rfl, ?_⟩
      by_contra hbounds
      rw [run_within_cons, step_within_of_not hbounds] at h
      cases text with
      | nil => cases h
      | cons c text => cases h

/-- The last byte of a character, and the text behind it. -/
theorem exists_of_run_within_zero (h : run (.within 0 low high value) bytes = text.map some) :
    ∃ b rest after, bytes = b :: rest ∧ (low.toNat ≤ b.toNat ∧ b.toNat ≤ high.toNat) ∧
      text = Char.ofNat (value * 64 + (b.toNat - 0x80)) :: after ∧
      run .start rest = after.map some := by
  obtain ⟨b, rest, rfl, hbounds⟩ := exists_of_run_within h
  rw [run_within_cons, step_within_zero hbounds] at h
  cases text with
  | nil => cases h
  | cons c after =>
      rw [List.map_cons, List.singleton_append, List.cons.injEq, Option.some.injEq] at h
      exact ⟨b, rest, after, rfl, hbounds, by rw [h.1], h.2⟩

/-- A byte in the middle of a character. -/
theorem exists_of_run_within_succ
    (h : run (.within (owed + 1) low high value) bytes = text.map some) :
    ∃ b rest, bytes = b :: rest ∧ (low.toNat ≤ b.toNat ∧ b.toNat ≤ high.toNat) ∧
      run (.within owed 0x80 0xBF (value * 64 + (b.toNat - 0x80))) rest = text.map some := by
  obtain ⟨b, rest, rfl, hbounds⟩ := exists_of_run_within h
  rw [run_within_cons, step_within_succ hbounds] at h
  exact ⟨b, rest, rfl, hbounds, h⟩

/-- A number that is a code point, as a character. -/
theorem toNat_ofNat_of_isValidChar {n : Nat} (h : n.isValidChar) : (Char.ofNat n).toNat = n := by
  unfold Char.ofNat
  rw [dif_pos h]
  rfl

/-- The first character of a text that some bytes spell has the first of them as its
encoding. -/
theorem exists_of_run_cons {b : UInt8} {rest : Bytes}
    (h : run .start (b :: rest) = text.map some) :
    ∃ c after tail, text = c :: after ∧ b :: rest = String.utf8EncodeChar c ++ tail ∧
      run .start tail = after.map some := by
  have hb : b.toNat < 256 := b.toNat_lt
  have hbyte {n : Nat} {d : UInt8} (h : n = d.toNat) : UInt8.ofNat n = d := by
    rw [h, UInt8.ofNat_toNat]
  rw [run_start_cons] at h
  by_cases hascii : b.toNat < 0x80
  · rw [first_of_ascii hascii] at h
    cases text with
    | nil => cases h
    | cons c after =>
        rw [List.map_cons, List.singleton_append, List.cons.injEq, Option.some.injEq] at h
        have hc : c.toNat = b.toNat := by
          rw [← h.1, toNat_ofNat_of_isValidChar (.inl (by omega))]
        refine ⟨c, after, rest, rfl, ?_, h.2⟩
        rw [utf8EncodeChar_of_one (by omega), hbyte hc]
        rfl
  by_cases hbroken : b.toNat < 0xC2 ∨ 0xF5 ≤ b.toNat
  · rw [first_of_broken (by omega)] at h
    cases text with
    | nil => cases h
    | cons c after => cases h
  by_cases htwo : b.toNat < 0xE0
  · rw [first_of_two (by omega)] at h
    obtain ⟨d, rest, after, rfl, hd, rfl, hafter⟩ := exists_of_run_within_zero h
    simp only [UInt8.reduceToNat] at hd
    have hc := toNat_ofNat_of_isValidChar (n := (b.toNat - 0xC0) * 64 + (d.toNat - 0x80))
      (.inl (by omega))
    refine ⟨_, after, rest, rfl, ?_, hafter⟩
    rw [utf8EncodeChar_of_two (by omega) (by omega), hc, hbyte (d := b) (by omega),
      hbyte (d := d) (by omega)]
    rfl
  by_cases hthree : b.toNat < 0xF0
  · rw [first_of_three (by omega)] at h
    obtain ⟨d, rest, rfl, hd, h⟩ := exists_of_run_within_succ h
    obtain ⟨e, rest, after, rfl, he, rfl, hafter⟩ := exists_of_run_within_zero h
    simp only [UInt8.reduceToNat] at he
    -- The bounds of the second byte keep out what has a shorter form, and surrogates.
    have hd' : 0x80 ≤ d.toNat ∧ d.toNat ≤ 0xBF ∧ (b.toNat = 0xE0 → 0xA0 ≤ d.toNat) ∧
        (b.toNat = 0xED → d.toNat ≤ 0x9F) := by
      split at hd <;> split at hd <;> simp only [UInt8.reduceToNat] at hd <;> omega
    have hc := toNat_ofNat_of_isValidChar
      (n := ((b.toNat - 0xE0) * 64 + (d.toNat - 0x80)) * 64 + (e.toNat - 0x80)) (by
        unfold Nat.isValidChar
        omega)
    refine ⟨_, after, rest, rfl, ?_, hafter⟩
    rw [utf8EncodeChar_of_three (by omega) (by omega), hc, hbyte (d := b) (by omega),
      hbyte (d := d) (by omega), hbyte (d := e) (by omega)]
    rfl
  · rw [first_of_four (by omega)] at h
    obtain ⟨d, rest, rfl, hd, h⟩ := exists_of_run_within_succ h
    obtain ⟨e, rest, rfl, he, h⟩ := exists_of_run_within_succ h
    obtain ⟨f, rest, after, rfl, hf, rfl, hafter⟩ := exists_of_run_within_zero h
    simp only [UInt8.reduceToNat] at he hf
    -- Here they keep out what has a shorter form, and what is past the last code point.
    have hd' : 0x80 ≤ d.toNat ∧ d.toNat ≤ 0xBF ∧ (b.toNat = 0xF0 → 0x90 ≤ d.toNat) ∧
        (b.toNat = 0xF4 → d.toNat ≤ 0x8F) := by
      split at hd <;> split at hd <;> simp only [UInt8.reduceToNat] at hd <;> omega
    have hc := toNat_ofNat_of_isValidChar
      (n := (((b.toNat - 0xF0) * 64 + (d.toNat - 0x80)) * 64 + (e.toNat - 0x80)) * 64 +
        (f.toNat - 0x80)) (by
        unfold Nat.isValidChar
        omega)
    refine ⟨_, after, rest, rfl, ?_, hafter⟩
    rw [utf8EncodeChar_of_four (by omega), hc, hbyte (d := b) (by omega),
      hbyte (d := d) (by omega), hbyte (d := e) (by omega), hbyte (d := f) (by omega)]
    rfl

/-- Bytes that are UTF-8 are the bytes of the text they spell. -/
theorem encode_of_decode? (h : decode? bytes = some text) : encode text = bytes := by
  rw [decode?_eq_some_iff] at h
  induction hlength : bytes.length using Nat.strongRecOn generalizing bytes text with
  | _ n ih =>
      cases bytes with
      | nil =>
          cases text with
          | nil => rfl
          | cons c text => cases h
      | cons b rest =>
          obtain ⟨c, after, tail, rfl, hbytes, htail⟩ := exists_of_run_cons h
          -- What follows the first character is shorter, and spells the rest of the text.
          have hshorter : tail.length < n := by
            have hpos := List.length_pos_iff.2 (String.utf8EncodeChar_ne_nil (c := c))
            have := congrArg List.length hbytes
            rw [List.length_append] at this
            omega
          rw [hbytes, ← ih _ hshorter htail rfl]
          rfl

end Decode

end ExplicitImports.Utf8
