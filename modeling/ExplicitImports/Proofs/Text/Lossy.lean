import ExplicitImports.Proofs.Text.Utf8
import ExplicitImports.Settings

/-!
# Lossy decoding

Which text is shown for bytes that need not be UTF-8, said without the decoder: the bytes are
cut into encodings of characters and `Broken` pieces, each as long as it can be, and every broken
piece is shown as U+FFFD.

* `readsAs_iff` — the decoder shows the text that `ReadsAs` relates to the bytes, and no other.
* `ReadsAs.exists_of_append` — a text that is shown in two parts is shown for two parts of the
  bytes.
* `ReadsAs.append_encode` — what comes before the encoding of a text does not change how it is
  read, whatever it breaks off with.
* `selects_stringLossy_iff` — the test of a name for a suffix, made on the text of the name, is
  one of its bytes.
-/

namespace ExplicitImports

namespace Utf8

/-- The encoding of some character starts with these bytes. -/
def BeginsCharacter (bytes : Bytes) : Prop :=
  ∃ c : Char, bytes <+: String.utf8EncodeChar c

theorem BeginsCharacter.of_le {bytes longer : Bytes} (h : BeginsCharacter longer)
    (hle : bytes <+: longer) : BeginsCharacter bytes := by
  obtain ⟨c, hc⟩ := h
  exact ⟨c, hle.trans hc⟩

/-- In front of `rest` the bytes `bad` are one broken piece: no character stands there, and they
are the longest beginning of a character that does, or a single byte if nothing else begins one. -/
structure Broken (bad rest : Bytes) : Prop where
  not_char : ∀ c : Char, ¬String.utf8EncodeChar c <+: bad ++ rest
  ne_nil : bad ≠ []
  begins : BeginsCharacter bad ∨ bad.length = 1
  longest : ∀ longer, longer <+: bad ++ rest → BeginsCharacter longer →
    longer.length ≤ bad.length

/-- A piece that no next byte goes on with is as long as it can be. -/
theorem Broken.of_next {bad rest : Bytes} (hne : bad ≠ [])
    (hbegins : BeginsCharacter bad ∨ bad.length = 1)
    (hchar : ∀ c : Char, ¬String.utf8EncodeChar c <+: bad)
    (hnext : ∀ b tail, rest = b :: tail → ¬BeginsCharacter (bad ++ [b])) : Broken bad rest := by
  have hlongest (longer : Bytes) (hlonger : longer <+: bad ++ rest)
      (hlonger' : BeginsCharacter longer) : longer.length ≤ bad.length := by
    by_contra hlength
    rw [Nat.not_le] at hlength
    obtain ⟨more, rfl⟩ := List.prefix_of_prefix_length_le (List.prefix_append bad rest) hlonger
      (Nat.le_of_lt hlength)
    cases more with
    | nil => simp at hlength
    | cons b more =>
        -- A longer beginning has the next byte in it.
        obtain ⟨tail, rfl⟩ := (List.prefix_append_right_inj bad).1 hlonger
        exact hnext b (more ++ tail) rfl (hlonger'.of_le ⟨more, by simp⟩)
  refine ⟨?_, hne, hbegins, hlongest⟩
  intro c hc
  have hlength := hlongest _ hc ⟨c, List.prefix_refl _⟩
  exact hchar c (List.prefix_of_prefix_length_le hc (List.prefix_append bad rest) hlength)

/-- The bytes are shown as this text: each character for its encoding, and one U+FFFD for each
broken piece. -/
inductive ReadsAs : Bytes → List Char → Prop
  | nil : ReadsAs [] []
  | char (c : Char) {rest : Bytes} {text : List Char} (hrest : ReadsAs rest text) :
      ReadsAs (String.utf8EncodeChar c ++ rest) (c :: text)
  | broken {bad rest : Bytes} {text : List Char} (hbad : Broken bad rest)
      (hrest : ReadsAs rest text) : ReadsAs (bad ++ rest) ('\uFFFD' :: text)

section Decoder

/-- What the bytes start with, and what the decoder makes of them. -/
inductive HeadCase : Bytes → List (Option Char) → Prop
  | char (c : Char) (rest : Bytes) :
      HeadCase (String.utf8EncodeChar c ++ rest) (some c :: pieces rest)
  | broken {bad rest : Bytes} (hbad : Broken bad rest) :
      HeadCase (bad ++ rest) (none :: pieces rest)

/-- Where a character stands the decoder reads it. -/
theorem exists_pieces_eq_cons {c : Char} {bytes : Bytes} (h : String.utf8EncodeChar c <+: bytes) :
    ∃ found, pieces bytes = some c :: found := by
  obtain ⟨rest, rfl⟩ := h
  exact ⟨_, run_utf8EncodeChar c rest⟩

/-- The decoder has read `seen` and is inside a character: every byte from `low` to `high` goes
on with it, and `owed` bytes come after that. -/
structure Inside (seen : Bytes) (owed : Nat) (low high : UInt8) (value : Nat) : Prop where
  run_eq : ∀ rest, run .start (seen ++ rest) = run (.within owed low high value) rest
  ne_nil : seen ≠ []
  low_le : low.toNat ≤ high.toNat

/-- A character that is begun can be completed. -/
theorem exists_run_within (owed : Nat) {low high b : UInt8} (value : Nat)
    (h : low.toNat ≤ b.toNat ∧ b.toNat ≤ high.toNat) :
    ∃ tail c, run (.within owed low high value) (b :: tail) = [some c] := by
  induction owed generalizing low high b value with
  | zero =>
      refine ⟨[], Char.ofNat (value * 64 + (b.toNat - 0x80)), ?_⟩
      rw [run_within_cons, step_within_zero h]
      rfl
  | succ owed ih =>
      -- From the third byte on the bounds are always the same, and `0x80` is within them.
      let next := value * 64 + (b.toNat - 0x80)
      have hnext : ∃ tail c, run (.within owed 0x80 0xBF next) (0x80 :: tail) = [some c] :=
        ih next (by decide)
      obtain ⟨tail, c, htail⟩ := hnext
      refine ⟨0x80 :: tail, c, ?_⟩
      rw [run_within_cons, step_within_succ h]
      exact htail

namespace Inside

variable {seen rest : Bytes} {owed value : Nat} {low high b : UInt8}

/-- Bytes that are read as one character are its encoding. -/
theorem encode_eq_of_run (h : Inside seen owed low high value) {c : Char}
    (hrun : run (.within owed low high value) rest = [some c]) :
    String.utf8EncodeChar c = seen ++ rest := by
  have hdecode : decode? (seen ++ rest) = some [c] := by
    rw [decode?_eq_some_iff, h.run_eq, hrun]
    rfl
  rw [← encode_of_decode? hdecode]
  exact (List.append_nil _).symm

/-- With one byte more the character goes on exactly if the byte is within the bounds. -/
theorem beginsCharacter_concat_iff (h : Inside seen owed low high value) :
    BeginsCharacter (seen ++ [b]) ↔ low.toNat ≤ b.toNat ∧ b.toNat ≤ high.toNat := by
  constructor
  · intro hbegins
    obtain ⟨c, more, hmore⟩ := hbegins
    by_contra hbounds
    have hread := run_utf8EncodeChar c []
    rw [List.append_nil, ← hmore, List.append_assoc, List.singleton_append, h.run_eq,
      run_within_cons, step_within_of_not hbounds] at hread
    cases hread
  · intro hbounds
    obtain ⟨tail, c, hrun⟩ := exists_run_within owed value hbounds
    exact ⟨c, tail, by rw [h.encode_eq_of_run hrun, List.append_assoc, List.singleton_append]⟩

theorem beginsCharacter (h : Inside seen owed low high value) : BeginsCharacter seen :=
  (h.beginsCharacter_concat_iff.2 ⟨Nat.le_refl _, h.low_le⟩).of_le (List.prefix_append _ [low])

theorem concat (h : Inside seen (owed + 1) low high value)
    (hbounds : low.toNat ≤ b.toNat ∧ b.toNat ≤ high.toNat) :
    Inside (seen ++ [b]) owed 0x80 0xBF (value * 64 + (b.toNat - 0x80)) := by
  refine ⟨?_, by simp, by decide⟩
  intro rest
  rw [List.append_assoc, List.singleton_append, h.run_eq, run_within_cons,
    step_within_succ hbounds]
  rfl

/-- If the next byte does not go on with the character, or there is none, what was seen of it is
a broken piece. -/
theorem broken (h : Inside seen owed low high value)
    (hnext : ∀ b tail, rest = b :: tail → ¬(low.toNat ≤ b.toNat ∧ b.toNat ≤ high.toNat)) :
    Broken seen rest := by
  refine .of_next h.ne_nil (.inl h.beginsCharacter) ?_ ?_
  · intro c hc
    obtain ⟨found, hfound⟩ := exists_pieces_eq_cons hc
    have hnone := h.run_eq []
    rw [List.append_nil] at hnone
    rw [pieces, hnone] at hfound
    cases hfound
  · intro b tail hrest hbegins
    exact hnext b tail hrest (h.beginsCharacter_concat_iff.1 hbegins)

/-- What the decoder makes of the character that it is inside of. -/
theorem headCase (h : Inside seen owed low high value) (rest : Bytes) :
    HeadCase (seen ++ rest) (run (.within owed low high value) rest) := by
  -- What was seen grows by each byte that goes on with the character.
  induction rest generalizing seen owed low high value with
  | nil => exact .broken (h.broken fun b tail hnil => nomatch hnil)
  | cons b rest ih =>
      rw [run_within_cons]
      by_cases hbounds : low.toNat ≤ b.toNat ∧ b.toNat ≤ high.toNat
      · have hsplit : seen ++ b :: rest = seen ++ [b] ++ rest := by simp
        cases owed with
        | zero =>
            rw [step_within_zero hbounds, hsplit]
            have hread : run (.within 0 low high value) [b] =
                [some (Char.ofNat (value * 64 + (b.toNat - 0x80)))] := by
              rw [run_within_cons, step_within_zero hbounds]
              rfl
            rw [← h.encode_eq_of_run hread]
            exact .char _ rest
        | succ owed =>
            rw [step_within_succ hbounds, hsplit]
            exact ih (h.concat hbounds)
      · rw [step_within_of_not hbounds]
        refine .broken (h.broken ?_)
        intro other tail hcons
        cases hcons
        exact hbounds

end Inside

/-- A byte that begins no character is a broken piece by itself. -/
theorem broken_singleton {b : UInt8} (h : 0x80 ≤ b.toNat ∧ b.toNat < 0xC2 ∨ 0xF5 ≤ b.toNat)
    (rest : Bytes) : Broken [b] rest := by
  have hnone (tail : Bytes) : pieces (b :: tail) = none :: pieces tail := by
    unfold pieces
    rw [run_start_cons, first_of_broken h]
    rfl
  have hchar (c : Char) (tail : Bytes) : ¬String.utf8EncodeChar c <+: b :: tail := by
    intro hc
    obtain ⟨found, hfound⟩ := exists_pieces_eq_cons hc
    rw [hnone] at hfound
    cases hfound
  refine .of_next (by simp) (.inr rfl) (fun c => hchar c []) ?_
  rintro d tail - ⟨c, more, hmore⟩
  exact hchar c (d :: more) ⟨[], by rw [List.append_nil, ← hmore]; rfl⟩

/-- What the decoder makes of the start of some bytes. -/
theorem headCase_pieces {bytes : Bytes} (h : bytes ≠ []) : HeadCase bytes (pieces bytes) := by
  obtain ⟨b, rest, rfl⟩ := List.exists_cons_of_ne_nil h
  have hinside {owed value : Nat} {low high : UInt8}
      (hfirst : first b = ([], .within owed low high value)) (hbounds : low.toNat ≤ high.toNat) :
      HeadCase (b :: rest) (pieces (b :: rest)) := by
    have hrun (tail : Bytes) :
        run .start ([b] ++ tail) = run (.within owed low high value) tail := by
      rw [List.singleton_append, run_start_cons, hfirst]
      rfl
    have hcase := Inside.headCase ⟨hrun, by simp, hbounds⟩ rest
    rwa [← hrun rest] at hcase
  -- The first byte says how long the character is, or that there is none.
  by_cases hascii : b.toNat < 0x80
  · have hchar : String.utf8EncodeChar (Char.ofNat b.toNat) = [b] := by
      have hvalue := toNat_ofNat_of_isValidChar (n := b.toNat) (.inl (by omega))
      rw [utf8EncodeChar_of_one (by omega), hvalue, UInt8.ofNat_toNat]
    have hpieces : pieces (b :: rest) = some (Char.ofNat b.toNat) :: pieces rest := by
      unfold pieces
      rw [run_start_cons, first_of_ascii hascii]
      rfl
    have hcase := HeadCase.char (Char.ofNat b.toNat) rest
    rwa [hchar, ← hpieces] at hcase
  by_cases hbroken : b.toNat < 0xC2 ∨ 0xF5 ≤ b.toNat
  · have hrange : 0x80 ≤ b.toNat ∧ b.toNat < 0xC2 ∨ 0xF5 ≤ b.toNat := by omega
    have hpieces : pieces (b :: rest) = none :: pieces rest := by
      unfold pieces
      rw [run_start_cons, first_of_broken hrange]
      rfl
    rw [hpieces]
    exact .broken (broken_singleton hrange rest)
  by_cases htwo : b.toNat < 0xE0
  · exact hinside (first_of_two (by omega)) (by decide)
  by_cases hthree : b.toNat < 0xF0
  · exact hinside (first_of_three (by omega))
      (by split <;> split <;> simp only [UInt8.reduceToNat] <;> omega)
  · exact hinside (first_of_four (by omega))
      (by split <;> split <;> simp only [UInt8.reduceToNat] <;> omega)

/-- The decoder shows a text as it is to be read. -/
theorem readsAs_decodeLossy (bytes : Bytes) : ReadsAs bytes (decodeLossy bytes) := by
  induction hlength : bytes.length using Nat.strongRecOn generalizing bytes with
  | _ n ih =>
      by_cases hnil : bytes = []
      · subst hnil
        exact .nil
      · have hcase := headCase_pieces hnil
        unfold decodeLossy
        generalize pieces bytes = found at hcase
        cases hcase with
        | char c rest =>
            have hpos := List.length_pos_iff.2 (String.utf8EncodeChar_ne_nil (c := c))
            rw [List.length_append] at hlength
            exact .char c (ih rest.length (by omega) rest rfl)
        | @broken bad rest hbad =>
            have hpos := List.length_pos_iff.2 hbad.ne_nil
            rw [List.length_append] at hlength
            exact .broken hbad (ih rest.length (by omega) rest rfl)

/-- Two broken pieces at the start of the same bytes are the same piece. -/
theorem Broken.eq_of_append_eq {bad rest other last : Bytes} (h : Broken bad rest)
    (h' : Broken other last) (heq : bad ++ rest = other ++ last) : bad = other := by
  have hle {a b c d : Bytes} (ha : Broken a b) (hc : Broken c d) (heq : a ++ b = c ++ d) :
      a.length ≤ c.length := by
    rcases ha.begins with hbegins | hone
    · exact hc.longest a (heq ▸ List.prefix_append a b) hbegins
    · have hpos := List.length_pos_iff.2 hc.ne_nil
      omega
  exact (List.append_inj heq (Nat.le_antisymm (hle h h' heq) (hle h' h heq.symm))).1

/-- A broken piece is read as such. -/
theorem decodeLossy_append_of_broken {bad rest : Bytes} (h : Broken bad rest) :
    decodeLossy (bad ++ rest) = '\uFFFD' :: decodeLossy rest := by
  have hcase : HeadCase (bad ++ rest) (pieces (bad ++ rest)) :=
    headCase_pieces (by simp [h.ne_nil])
  unfold decodeLossy
  generalize hbytes : bad ++ rest = bytes at hcase
  generalize pieces bytes = found at hcase
  cases hcase with
  | char c last => exact absurd (hbytes ▸ List.prefix_append _ last) (h.not_char c)
  | @broken other last hother =>
      obtain rfl := h.eq_of_append_eq hother hbytes
      rw [List.append_cancel_left hbytes]
      rfl

/-- The decoder shows the text that is to be read, and there is no other. -/
theorem readsAs_iff {bytes : Bytes} {text : List Char} :
    ReadsAs bytes text ↔ decodeLossy bytes = text := by
  constructor
  · intro h
    induction h with
    | nil => rfl
    | @char c rest text hrest ih =>
        unfold decodeLossy pieces at ih ⊢
        rw [run_utf8EncodeChar, List.map_cons, ih]
        rfl
    | broken hbad hrest ih => rw [decodeLossy_append_of_broken hbad, ih]
  · rintro rfl
    exact readsAs_decodeLossy bytes

end Decoder

section Encoding

/-- A byte that only goes on with a character. -/
def Continues (b : UInt8) : Prop :=
  0x80 ≤ b.toNat ∧ b.toNat < 0xC0

/-- Of the bytes of a character the first one does not go on with another, and all others do. -/
theorem exists_lead (c : Char) :
    ∃ lead rest, String.utf8EncodeChar c = lead :: rest ∧ ¬Continues lead ∧
      ∀ b ∈ rest, Continues b := by
  have hbyte {n : Nat} (h : n < 256) : (UInt8.ofNat n).toNat = n := UInt8.toNat_ofNat_of_lt' h
  have hvalid : c.toNat < 0xD800 ∨ 0xDFFF < c.toNat ∧ c.toNat < 0x110000 := c.valid
  have hlast := hbyte (n := c.toNat % 0x40 + 0x80) (by omega)
  have hthird := hbyte (n := c.toNat / 64 % 0x40 + 0x80) (by omega)
  have hsecond := hbyte (n := c.toNat / 4096 % 0x40 + 0x80) (by omega)
  unfold Continues
  by_cases hone : c.toNat ≤ 0x7F
  · refine ⟨_, _, utf8EncodeChar_of_one hone, ?_, by simp⟩
    rw [hbyte (by omega)]
    omega
  by_cases htwo : c.toNat ≤ 0x7FF
  · refine ⟨_, _, utf8EncodeChar_of_two (by omega) htwo, ?_, ?_⟩
    · rw [hbyte (by omega)]
      omega
    · simp only [List.mem_cons, List.not_mem_nil, or_false, forall_eq, hlast]
      omega
  by_cases hthree : c.toNat ≤ 0xFFFF
  · refine ⟨_, _, utf8EncodeChar_of_three (by omega) hthree, ?_, ?_⟩
    · rw [hbyte (by omega)]
      omega
    · simp only [List.mem_cons, List.not_mem_nil, or_false, forall_eq_or_imp, forall_eq, hthird,
        hlast]
      omega
  · refine ⟨_, _, utf8EncodeChar_of_four (by omega), ?_, ?_⟩
    · rw [hbyte (by omega)]
      omega
    · simp only [List.mem_cons, List.not_mem_nil, or_false, forall_eq_or_imp, forall_eq, hsecond,
        hthird, hlast]
      omega

/-- The first byte of a character goes on with nothing that was begun before. -/
theorem not_beginsCharacter_concat_lead {c : Char} {lead : UInt8} {rest before : Bytes}
    (hlead : String.utf8EncodeChar c = lead :: rest) (hbefore : before ≠ []) :
    ¬BeginsCharacter (before ++ [lead]) := by
  rintro ⟨d, more, hmore⟩
  obtain ⟨_, _, hc, hstarts, -⟩ := exists_lead c
  obtain ⟨_, _, hd, -, hcontinues⟩ := exists_lead d
  rw [hlead] at hc
  cases hc
  obtain ⟨b, before, rfl⟩ := List.exists_cons_of_ne_nil hbefore
  rw [hd] at hmore
  obtain ⟨-, hrest⟩ := List.cons.inj hmore
  exact hstarts (hcontinues lead (hrest ▸ by simp))

/-- A broken piece stays one when the encoding of a text comes after all. -/
theorem Broken.append_encode {bad rest : Bytes} (h : Broken bad rest) (text : List Char) :
    Broken bad (rest ++ encode text) := by
  refine .of_next h.ne_nil h.begins ?_ ?_
  · intro c hc
    exact h.not_char c (hc.trans (List.prefix_append bad rest))
  · intro b tail heq hbegins
    -- The next byte is the one that was next before, or it is the first byte of the text.
    cases rest with
    | cons d rest =>
        obtain ⟨rfl, -⟩ := List.cons.inj heq
        have hlength := h.longest (bad ++ [d]) ⟨rest, by simp⟩ hbegins
        rw [List.length_append, List.length_singleton] at hlength
        omega
    | nil =>
        cases text with
        | nil => cases heq
        | cons c text =>
            obtain ⟨lead, more, hlead, -, -⟩ := exists_lead c
            have hencode : encode (c :: text) = lead :: (more ++ encode text) := by
              show String.utf8EncodeChar c ++ encode text = _
              rw [hlead, List.cons_append]
            rw [List.nil_append, hencode] at heq
            obtain ⟨rfl, -⟩ := List.cons.inj heq
            exact not_beginsCharacter_concat_lead hlead h.ne_nil hbegins

end Encoding

namespace ReadsAs

variable {bytes : Bytes} {text : List Char}

/-- A text in two parts is read from two parts of the bytes. -/
theorem exists_of_append {before after : List Char} (h : ReadsAs bytes (before ++ after)) :
    ∃ front back, bytes = front ++ back ∧ ReadsAs back after := by
  induction before generalizing bytes with
  | nil => exact ⟨[], bytes, rfl, h⟩
  | cons c before ih =>
      cases h with
      | char _ hrest =>
          obtain ⟨front, back, rfl, hback⟩ := ih hrest
          exact ⟨String.utf8EncodeChar c ++ front, back, (List.append_assoc ..).symm, hback⟩
      | @broken bad _ _ hbad hrest =>
          obtain ⟨front, back, rfl, hback⟩ := ih hrest
          exact ⟨bad ++ front, back, (List.append_assoc ..).symm, hback⟩

/-- A text without U+FFFD is read from its own encoding only. -/
theorem eq_encode (h : ReadsAs bytes text) (htext : '\uFFFD' ∉ text) : bytes = encode text := by
  induction h with
  | nil => rfl
  | char c hrest ih => rw [ih fun hmem => htext (List.mem_cons_of_mem c hmem)]; rfl
  | broken hbad hrest ih => exact absurd List.mem_cons_self htext

theorem of_encode (text : List Char) : ReadsAs (encode text) text := by
  induction text with
  | nil => exact .nil
  | cons c text ih => exact .char c ih

/-- What comes before the encoding of a text is read as if nothing came after it. -/
theorem append_encode (h : ReadsAs bytes text) (last : List Char) :
    ReadsAs (bytes ++ encode last) (text ++ last) := by
  induction h with
  | nil => exact of_encode last
  | char c hrest ih =>
      rw [List.append_assoc]
      exact .char c ih
  | broken hbad hrest ih =>
      rw [List.append_assoc]
      exact .broken (hbad.append_encode last) ih

end ReadsAs

/-- A text without U+FFFD is at the end of what is shown for some bytes exactly if its encoding
is at the end of the bytes. -/
theorem suffix_decodeLossy_iff {text : List Char} (h : '\uFFFD' ∉ text) (bytes : Bytes) :
    text <:+ decodeLossy bytes ↔ encode text <:+ bytes := by
  constructor
  · rintro ⟨before, hbefore⟩
    have hreads := readsAs_decodeLossy bytes
    rw [← hbefore] at hreads
    obtain ⟨front, back, rfl, hback⟩ := hreads.exists_of_append
    rw [hback.eq_encode h]
    exact List.suffix_append front _
  · rintro ⟨front, rfl⟩
    rw [readsAs_iff.1 ((readsAs_decodeLossy front).append_encode text)]
    exact List.suffix_append _ text

end Utf8

/-- Whether a name is selected by its suffix, which is tested on the text of the name.  If no
suffix holds U+FFFD the name is selected exactly if its bytes end in those of a suffix, whatever
bytes it has besides.  The text has the characters that the bytes encode, and one U+FFFD for each
broken piece, the longest that it can be. -/
theorem selects_stringLossy_iff (settings : Settings)
    (h : ∀ suffix ∈ settings.suffixes, '\uFFFD' ∉ suffix.toList) (name : Bytes) :
    (settings.selects (Utf8.stringLossy name) = true ↔
      ∃ suffix ∈ settings.suffixes, Utf8.ofString suffix <:+ name) ∧
    ∀ text, Utf8.ReadsAs name text ↔ (Utf8.stringLossy name).toList = text := by
  have htext : (Utf8.stringLossy name).toList = Utf8.decodeLossy name := String.toList_ofList
  refine ⟨?_, ?_⟩
  · rw [Settings.selects_iff, htext]
    refine exists_congr fun suffix => and_congr_right fun hsuffix => ?_
    exact Utf8.suffix_decodeLossy_iff (h suffix hsuffix) name
  · intro text
    rw [htext]
    exact Utf8.readsAs_iff

/-- A character that breaks off does not swallow the two bytes of the suffix behind it. -/
theorem selects_stringLossy_iff_brokenOff :
    let settings : Settings := { suffixes := ["é"] }
    let name : Bytes := [0xE2, 0x82, 0xC3, 0xA9]
    (∀ suffix ∈ settings.suffixes, '\uFFFD' ∉ suffix.toList) ∧
      settings.selects (Utf8.stringLossy name) = true ∧ Utf8.ReadsAs name ['\uFFFD', 'é'] := by
  intro settings name
  have hsuffixes : ∀ suffix ∈ settings.suffixes, '\uFFFD' ∉ suffix.toList := by decide +kernel
  obtain ⟨hselects, hreads⟩ := selects_stringLossy_iff settings hsuffixes name
  exact ⟨hsuffixes, hselects.2 (by decide +kernel), (hreads _).2 (by decide +kernel)⟩

end ExplicitImports
