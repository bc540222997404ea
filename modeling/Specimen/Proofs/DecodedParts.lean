import Mathlib.Algebra.Group.Nat.Defs
import Mathlib.Data.List.Basic
import Specimen.Text.Utf8

/-!
# The parts that bytes fall into

A machine that is fed byte by byte (`Utf8Decoder`) tells characters and
stray bytes apart. What it should give can be said without a machine, by
the encoding of characters alone: bytes fall into encodings and into stray
parts, and a part is stray where no encoding stands, and is then the
longest beginning of one, or a single byte where none begins
(`Utf8Split`).

The bytes determine such parts (`Utf8Split.unique`), and the machine finds
them (`utf8Parts_eq_iff`). What the machine has to know of an open character
is which bytes the encodings that begin like it go on with
(`OpenChar.Sound`): the bounds on the next byte let those pass and no others.
-/

namespace Specimen

open String (utf8EncodeChar)

/-! ## Encodings -/

/-- The last bytes of an encoding, which carry six bits each. -/
def continuation (code : Nat) : Nat → List UInt8
  | 0 => []
  | k + 1 => UInt8.ofNat (code / 64 ^ k % 64 + 0x80) :: continuation code k

/-- Whether the encoding of a code point begins with a byte that `k` others
follow. -/
def Leads (code b k : Nat) : Prop :=
  k = 0 ∧ code < 0x80 ∧ b = code ∨
  k = 1 ∧ 0x80 ≤ code ∧ code < 0x800 ∧ b = code / 64 + 0xc0 ∨
  k = 2 ∧ 0x800 ≤ code ∧ code < 0x10000 ∧ b = code / 4096 + 0xe0 ∨
  k = 3 ∧ 0x10000 ≤ code ∧ b = code / 262144 + 0xf0

theorem toNat_ofNat_of_valid {code : Nat} (h : code.isValidChar) :
    (Char.ofNat code).toNat = code := by
  rw [Char.ofNat, dif_pos h]
  rfl

theorem toNat_ofNat_of_lt {n : Nat} (h : n < 256) : (UInt8.ofNat n).toNat = n := by
  rw [UInt8.toNat_ofNat']
  exact Nat.mod_eq_of_lt h

/-- An encoding is a first byte and those that follow it. -/
theorem exists_leads (c : Char) : ∃ b k, Leads c.toNat b.toNat k ∧
    utf8EncodeChar c = b :: continuation c.toNat k := by
  -- no bits of the first byte are cut off
  have hleads : ∀ n k, n < 256 → Leads c.toNat n k →
      utf8EncodeChar c = UInt8.ofNat n :: continuation c.toNat k →
      ∃ b k, Leads c.toNat b.toNat k ∧ utf8EncodeChar c = b :: continuation c.toNat k :=
    fun n k hn hlead heq => ⟨UInt8.ofNat n, k, (toNat_ofNat_of_lt hn).symm ▸ hlead, heq⟩
  have hbound : c.toNat < 0x110000 := by
    have hvalid : c.toNat.isValidChar := c.valid
    unfold Nat.isValidChar at hvalid
    omega
  have hcode : c.val.toNat = c.toNat := rfl
  by_cases h1 : c.toNat ≤ 0x7f
  · refine hleads c.toNat 0 (by omega) (by unfold Leads; omega) ?_
    simp only [utf8EncodeChar, hcode, if_pos h1, continuation]
  by_cases h2 : c.toNat ≤ 0x7ff
  · refine hleads (c.toNat / 64 + 0xc0) 1 (by omega) (by unfold Leads; omega) ?_
    have hmod : c.toNat / 64 % 0x20 = c.toNat / 64 := by omega
    simp only [utf8EncodeChar, hcode, if_neg h1, if_pos h2, continuation, hmod, Nat.pow_zero,
      Nat.div_one]
  by_cases h3 : c.toNat ≤ 0xffff
  · refine hleads (c.toNat / 4096 + 0xe0) 2 (by omega) (by unfold Leads; omega) ?_
    have hmod : c.toNat / 4096 % 0x10 = c.toNat / 4096 := by omega
    simp only [utf8EncodeChar, hcode, if_neg h1, if_neg h2, if_pos h3, continuation, hmod,
      Nat.pow_zero, Nat.div_one, Nat.pow_one]
  · refine hleads (c.toNat / 262144 + 0xf0) 3 (by omega) (by unfold Leads; omega) ?_
    have hmod : c.toNat / 262144 % 0x8 = c.toNat / 262144 := by omega
    simp only [utf8EncodeChar, hcode, if_neg h1, if_neg h2, if_neg h3, continuation, hmod,
      Nat.pow_zero, Nat.div_one, Nat.pow_one, Nat.reducePow]

/-- **No encoding is the beginning of another**, as the character is read
back from its encoding with anything behind it. -/
theorem eq_of_utf8EncodeChar_isPrefix {c d : Char} (h : utf8EncodeChar c <+: utf8EncodeChar d) :
    c = d := by
  obtain ⟨more, hmore⟩ := h
  have hc := @ByteArray.utf8DecodeChar?_utf8EncodeChar_append more.toByteArray c
  have hd := @ByteArray.utf8DecodeChar?_utf8EncodeChar_append [].toByteArray d
  rw [← List.toByteArray_append, hmore] at hc
  rw [← List.toByteArray_append, List.append_nil] at hd
  exact Option.some.inj (hc.symm.trans hd)

/-! ## Parts -/

/-- **Bytes that begin a character**: its encoding goes on behind them, or
ends with them. -/
def BeginsChar (bytes : List UInt8) : Prop := ∃ c, bytes <+: utf8EncodeChar c

theorem BeginsChar.of_isPrefix {bytes more : List UInt8} (h : BeginsChar more)
    (hbegins : bytes <+: more) : BeginsChar bytes :=
  h.imp fun _ hc => hbegins.trans hc

/-- **A stray part** of bytes, and what follows it. -/
structure StrayBefore (bytes rest : List UInt8) : Prop where
  /-- No character can be read here. -/
  unreadable : ∀ c, ¬utf8EncodeChar c <+: bytes ++ rest
  /-- It begins a character, or is a single byte. -/
  begins : bytes ≠ [] ∧ BeginsChar bytes ∨ bytes.length = 1
  /-- It is as long as it can be. -/
  longest : ∀ b ∈ rest.head?, ¬BeginsChar (bytes ++ [b])

/-- **The parts that bytes fall into**: the characters whose encodings stand
one behind another, and the stray bytes between them. -/
inductive Utf8Split : List UInt8 → List Utf8Part → Prop where
  /-- No bytes have no parts. -/
  | nil : Utf8Split [] []
  /-- A character stands in front. -/
  | char (c : Char) {rest : List UInt8} {parts : List Utf8Part} :
      Utf8Split rest parts → Utf8Split (utf8EncodeChar c ++ rest) (.char c :: parts)
  /-- None does. -/
  | stray {bytes rest : List UInt8} {parts : List Utf8Part} : StrayBefore bytes rest →
      Utf8Split rest parts → Utf8Split (bytes ++ rest) (.stray bytes :: parts)

theorem StrayBefore.ne_nil {bytes rest : List UInt8} (h : StrayBefore bytes rest) : bytes ≠ [] := by
  rcases h.begins with h | h
  · exact h.1
  · exact List.ne_nil_of_length_pos (h ▸ Nat.one_pos)

/-- **A byte that begins no character** is stray. -/
theorem strayBefore_singleton {b : UInt8} (h : ¬BeginsChar [b]) (rest : List UInt8) :
    StrayBefore [b] rest where
  unreadable c hc := by
    refine h ⟨c, ?_⟩
    cases hencoding : utf8EncodeChar c with
    | nil => exact absurd hencoding String.utf8EncodeChar_ne_nil
    | cons b' more =>
      rw [hencoding] at hc
      rw [(List.cons_prefix_cons.mp hc).1]
      exact ⟨more, rfl⟩
  begins := .inr rfl
  longest b' _ hbegins := h (hbegins.of_isPrefix (List.prefix_append _ _))

/-- A stray part is no shorter than another in the same place. -/
theorem StrayBefore.length_le {bytes bytes' rest rest' : List UInt8} (h : StrayBefore bytes rest)
    (h' : StrayBefore bytes' rest') (heq : bytes ++ rest = bytes' ++ rest') :
    bytes'.length ≤ bytes.length := by
  by_contra hlength
  have hlength : bytes.length < bytes'.length := Nat.lt_of_not_le hlength
  obtain ⟨more, rfl⟩ : bytes <+: bytes' :=
    List.prefix_of_prefix_length_le (List.prefix_append bytes rest)
      (heq ▸ List.prefix_append bytes' rest') (Nat.le_of_lt hlength)
  rw [List.append_assoc] at heq
  have hrest : rest = more ++ rest' := List.append_cancel_left heq
  -- the longer one is not a single byte, so it begins a character
  rcases h'.begins with ⟨-, hbegins⟩ | hone
  · cases more with
    | nil => exact absurd hlength (by simp)
    | cons b more =>
      refine h.longest b (hrest ▸ rfl) (hbegins.of_isPrefix ?_)
      exact ⟨more, by rw [List.append_assoc, List.singleton_append]⟩
  · have hpos := List.length_pos_iff.mpr h.ne_nil
    omega

/-- **The bytes determine their parts.** No encoding begins another, a
stray part is no encoding, and it is as long as it can be; so two splits
of the same bytes have one part in front, and go on alike behind it. -/
theorem Utf8Split.unique {bytes : List UInt8} {parts parts' : List Utf8Part}
    (h : Utf8Split bytes parts) (h' : Utf8Split bytes parts') : parts = parts' := by
  induction h generalizing parts' with
  | nil =>
    generalize hbytes : ([] : List UInt8) = bytes at h'
    cases h' with
    | nil => rfl
    | char c h' =>
      exact absurd (List.append_eq_nil_iff.mp hbytes.symm).1 String.utf8EncodeChar_ne_nil
    | stray hstray h' => exact absurd (List.append_eq_nil_iff.mp hbytes.symm).1 hstray.ne_nil
  | @char c rest parts _ ih =>
    generalize hbytes : utf8EncodeChar c ++ rest = bytes at h'
    cases h' with
    | nil => exact absurd (List.append_eq_nil_iff.mp hbytes).1 String.utf8EncodeChar_ne_nil
    | char d h' =>
      have hbegins := List.prefix_or_prefix_of_prefix (List.prefix_append (utf8EncodeChar c) rest)
        (hbytes ▸ List.prefix_append (utf8EncodeChar d) _)
      have hcd : c = d := hbegins.elim eq_of_utf8EncodeChar_isPrefix
        fun h => (eq_of_utf8EncodeChar_isPrefix h).symm
      subst hcd
      rw [ih (List.append_cancel_left hbytes ▸ h')]
    | stray hstray h' => exact absurd (hbytes ▸ List.prefix_append _ rest) (hstray.unreadable c)
  | @stray stray rest parts hstray _ ih =>
    generalize hbytes : stray ++ rest = bytes at h'
    cases h' with
    | nil => exact absurd (List.append_eq_nil_iff.mp hbytes).1 hstray.ne_nil
    | char d h' => exact absurd (hbytes ▸ List.prefix_append _ _) (hstray.unreadable d)
    | stray hstray' h' =>
      have hlength := Nat.le_antisymm (hstray'.length_le hstray hbytes.symm)
        (hstray.length_le hstray' hbytes)
      obtain ⟨rfl, hrest⟩ := List.append_inj hbytes hlength
      rw [ih (hrest ▸ h')]

/-! ## What an open character stands for -/

/-- **An open character of which `k` bytes are missing behind the next one.**
The encodings that begin with its bytes are those of the code points that
begin with its bits, and the next byte of one is within its bounds. -/
structure OpenChar.Sound (o : OpenChar) (k : Nat) : Prop where
  /-- So many bytes are missing. -/
  missing : o.missing = k + 1
  /-- There are bytes. -/
  nonempty : o.bytes ≠ []
  /-- The bounds are those of bytes that continue an encoding. -/
  bounds : 0x80 ≤ o.low.toNat ∧ o.low.toNat ≤ o.high.toNat ∧ o.high.toNat ≤ 0xbf
  /-- What encodings that begin like this go on with. -/
  of_encoding : ∀ c, o.bytes.reverse <+: utf8EncodeChar c →
    utf8EncodeChar c = o.bytes.reverse ++ continuation c.toNat (k + 1) ∧
      c.toNat / 64 ^ (k + 1) = o.bits ∧
      o.low.toNat ≤ c.toNat / 64 ^ k % 64 + 0x80 ∧ c.toNat / 64 ^ k % 64 + 0x80 ≤ o.high.toNat
  /-- Which encodings begin like this. -/
  of_code : ∀ code, code / 64 ^ (k + 1) = o.bits → o.low.toNat ≤ code / 64 ^ k % 64 + 0x80 →
    code / 64 ^ k % 64 + 0x80 ≤ o.high.toNat →
    ∃ c : Char, c.toNat = code ∧ o.bytes.reverse <+: utf8EncodeChar c

theorem Leads.unique {code b b' k k' : Nat} (h : Leads code b k) (h' : Leads code b' k') :
    b = b' ∧ k = k' := by
  unfold Leads at h h'
  omega

/-- A byte opens a character when the bits and the bounds say which code
points it leads. -/
theorem OpenChar.sound_of_leads {b low high : UInt8} {bits k : Nat}
    (hbounds : 0x80 ≤ low.toNat ∧ low.toNat ≤ high.toNat ∧ high.toNat ≤ 0xbf)
    (hleads : ∀ code k', code.isValidChar ∧ Leads code b.toNat k' ↔
      k' = k + 1 ∧ code / 64 ^ (k + 1) = bits ∧ low.toNat ≤ code / 64 ^ k % 64 + 0x80 ∧
        code / 64 ^ k % 64 + 0x80 ≤ high.toNat) :
    OpenChar.Sound ⟨bits, k + 1, low, high, [b]⟩ k where
  missing := rfl
  nonempty := List.cons_ne_nil _ _
  bounds := hbounds
  of_encoding c hc := by
    obtain ⟨b', k', hlead, hencoding⟩ := exists_leads c
    rw [hencoding] at hc ⊢
    obtain rfl : b = b' := (List.cons_prefix_cons.mp hc).1
    obtain ⟨rfl, hbits, hnext⟩ := (hleads c.toNat k').mp ⟨c.valid, hlead⟩
    exact ⟨rfl, hbits, hnext⟩
  of_code code hbits hlow hhigh := by
    obtain ⟨hvalid, hlead⟩ := (hleads code (k + 1)).mpr ⟨rfl, hbits, hlow, hhigh⟩
    have hnat := toNat_ofNat_of_valid hvalid
    obtain ⟨b', k', hlead', hencoding⟩ := exists_leads (Char.ofNat code)
    rw [hnat] at hlead'
    obtain rfl : b = b' := UInt8.toNat_inj.mp (hlead.unique hlead').1
    exact ⟨Char.ofNat code, hnat, hencoding ▸ ⟨_, rfl⟩⟩

/-- **What is read of a first byte** is what it says. -/
def LeadByte.Sound (b : UInt8) : LeadByte → Prop
  | single c => utf8EncodeChar c = [b]
  | opening o => (∃ k, o.Sound k) ∧ o.bytes = [b]
  | invalid => ¬BeginsChar [b]

theorem LeadByte.sound_single {b : UInt8} (hb : b.toNat < 0x80) :
    (single (Char.ofNat b.toNat)).Sound b := by
  have hnat : (Char.ofNat b.toNat).toNat = b.toNat := toNat_ofNat_of_valid (.inl (by omega))
  obtain ⟨b', k, hlead, hencoding⟩ := exists_leads (Char.ofNat b.toNat)
  rw [hnat] at hlead
  unfold Leads at hlead
  obtain rfl : k = 0 := by omega
  obtain rfl : b = b' := UInt8.toNat_inj.mp (by omega)
  exact hencoding

theorem LeadByte.sound_invalid {b : UInt8}
    (hb : ∀ code k, code.isValidChar → ¬Leads code b.toNat k) : invalid.Sound b := by
  rintro ⟨c, hc⟩
  obtain ⟨b', k, hlead, hencoding⟩ := exists_leads c
  rw [hencoding] at hc
  obtain rfl : b = b' := (List.cons_prefix_cons.mp hc).1
  exact hb _ _ c.valid hlead

/-- **A first byte is read right.** -/
theorem LeadByte.sound_ofByte (b : UInt8) : (ofByte b).Sound b := by
  -- the bounds and the powers are given as numbers, for what remains to be arithmetic
  have hopening : ∀ {low high : UInt8} {bits k : Nat} (l h p q : Nat), low.toNat = l →
      high.toNat = h → 64 ^ k = p → 64 ^ (k + 1) = q → 0x80 ≤ l ∧ l ≤ h ∧ h ≤ 0xbf →
      (∀ code k', code.isValidChar ∧ Leads code b.toNat k' ↔
        k' = k + 1 ∧ code / q = bits ∧ l ≤ code / p % 64 + 0x80 ∧ code / p % 64 + 0x80 ≤ h) →
      (opening ⟨bits, k + 1, low, high, [b]⟩).Sound b := by
    rintro low high bits k _ _ _ _ rfl rfl rfl rfl hbounds hleads
    exact ⟨⟨_, OpenChar.sound_of_leads hbounds hleads⟩, rfl⟩
  have hinvalid : (∀ code k, code.isValidChar → ¬Leads code b.toNat k) → invalid.Sound b :=
    sound_invalid
  unfold Leads Nat.isValidChar at hopening hinvalid
  have hb : b.toNat < 256 := b.toNat_lt
  unfold ofByte
  simp only [UInt8.lt_iff_toNat_lt, beq_iff_eq, ← UInt8.toNat_inj, UInt8.reduceToNat]
  by_cases h1 : b.toNat < 0x80
  · rw [if_pos h1]
    exact sound_single h1
  rw [if_neg h1]
  by_cases h2 : b.toNat < 0xc2
  · rw [if_pos h2]
    exact hinvalid fun code k => by omega
  rw [if_neg h2]
  by_cases h3 : b.toNat < 0xe0
  · rw [if_pos h3]
    exact hopening 0x80 0xbf 1 64 rfl rfl rfl rfl (by decide) fun code k' => by omega
  rw [if_neg h3]
  by_cases h4 : b.toNat = 0xe0
  · rw [if_pos h4]
    exact hopening 0xa0 0xbf 64 4096 rfl rfl rfl rfl (by decide) fun code k' => by omega
  rw [if_neg h4]
  by_cases h5 : b.toNat = 0xed
  · rw [if_pos h5]
    exact hopening 0x80 0x9f 64 4096 rfl rfl rfl rfl (by decide) fun code k' => by omega
  rw [if_neg h5]
  by_cases h6 : b.toNat < 0xf0
  · rw [if_pos h6]
    exact hopening 0x80 0xbf 64 4096 rfl rfl rfl rfl (by decide) fun code k' => by omega
  rw [if_neg h6]
  by_cases h7 : b.toNat = 0xf0
  · rw [if_pos h7]
    exact hopening 0x90 0xbf 4096 262144 rfl rfl rfl rfl (by decide) fun code k' => by omega
  rw [if_neg h7]
  by_cases h8 : b.toNat < 0xf4
  · rw [if_pos h8]
    exact hopening 0x80 0xbf 4096 262144 rfl rfl rfl rfl (by decide) fun code k' => by omega
  rw [if_neg h8]
  by_cases h9 : b.toNat = 0xf4
  · rw [if_pos h9]
    exact hopening 0x80 0x8f 4096 262144 rfl rfl rfl rfl (by decide) fun code k' => by omega
  rw [if_neg h9]
  exact hinvalid fun code k => by omega

theorem div_pow_succ (code k : Nat) : code / 64 ^ (k + 1) = code / 64 ^ k / 64 := by
  rw [Nat.pow_succ, Nat.div_div_eq_div_mul]

namespace OpenChar.Sound

variable {o : OpenChar} {k : Nat}

/-- The next byte of an encoding that begins like this. -/
theorem next_eq (h : o.Sound k) {b : UInt8} {c : Char}
    (hc : o.bytes.reverse ++ [b] <+: utf8EncodeChar c) :
    b.toNat = c.toNat / 64 ^ k % 64 + 0x80 := by
  obtain ⟨hencoding, -⟩ := h.of_encoding c ((List.prefix_append _ _).trans hc)
  rw [hencoding, List.prefix_append_right_inj] at hc
  rw [(List.cons_prefix_cons.mp hc).1]
  exact toNat_ofNat_of_lt (by omega)

/-- **A byte out of bounds continues no character.** -/
theorem inBounds_of_beginsChar (h : o.Sound k) {b : UInt8}
    (hb : BeginsChar (o.bytes.reverse ++ [b])) : o.low ≤ b ∧ b ≤ o.high := by
  obtain ⟨c, hc⟩ := hb
  obtain ⟨-, -, hlow, hhigh⟩ := h.of_encoding c ((List.prefix_append _ _).trans hc)
  rw [← h.next_eq hc] at hlow hhigh
  exact ⟨UInt8.le_iff_toNat_le.mpr hlow, UInt8.le_iff_toNat_le.mpr hhigh⟩

/-- **A byte in bounds continues the characters that have its bits next.** -/
theorem exists_of_inBounds (h : o.Sound k) {b : UInt8} (hlow : o.low ≤ b) (hhigh : b ≤ o.high)
    {code : Nat} (hcode : code / 64 ^ k = o.bits * 64 + (b.toNat - 0x80)) :
    ∃ c : Char, c.toNat = code ∧
      utf8EncodeChar c = o.bytes.reverse ++ b :: continuation code k := by
  obtain ⟨hleast, -, hgreatest⟩ := h.bounds
  have hlow : o.low.toNat ≤ b.toNat := UInt8.le_iff_toNat_le.mp hlow
  have hhigh : b.toNat ≤ o.high.toNat := UInt8.le_iff_toNat_le.mp hhigh
  have hnext : code / 64 ^ k % 64 + 0x80 = b.toNat := by omega
  obtain ⟨c, rfl, hc⟩ := h.of_code code (by rw [div_pow_succ]; omega) (by omega) (by omega)
  refine ⟨c, rfl, ?_⟩
  rw [(h.of_encoding c hc).1, continuation, hnext, UInt8.ofNat_toNat]

/-- **Some character begins like an open one.** -/
theorem beginsChar (h : o.Sound k) : BeginsChar o.bytes.reverse := by
  have hcode : (o.bits * 64 + (o.low.toNat - 0x80)) * 64 ^ k / 64 ^ k
      = o.bits * 64 + (o.low.toNat - 0x80) := Nat.mul_div_cancel _ (Nat.pow_pos (by decide))
  obtain ⟨c, -, hc⟩ := h.exists_of_inBounds (UInt8.le_refl _)
    (UInt8.le_iff_toNat_le.mpr h.bounds.2.1) hcode
  exact ⟨c, _, hc.symm⟩

/-- A byte in bounds leaves one open of which fewer are missing. -/
theorem goOn (h : o.Sound (k + 1)) {b : UInt8} (hlow : o.low ≤ b) (hhigh : b ≤ o.high) :
    OpenChar.Sound ⟨o.bits * 64 + (b.toNat - 0x80), k + 1, 0x80, 0xbf, b :: o.bytes⟩ k where
  missing := rfl
  nonempty := List.cons_ne_nil _ _
  bounds := by
    dsimp only
    decide
  of_encoding c hc := by
    rw [List.reverse_cons] at hc ⊢
    have hnext := h.next_eq hc
    obtain ⟨hencoding, hbits, -⟩ := h.of_encoding c ((List.prefix_append _ _).trans hc)
    rw [div_pow_succ] at hbits
    refine ⟨?_, ?_, ?_⟩
    · rw [hencoding, continuation, ← hnext, UInt8.ofNat_toNat, List.append_assoc]
      rfl
    · dsimp only
      omega
    · simp only [UInt8.reduceToNat]
      omega
  of_code code hbits _ _ := by
    obtain ⟨c, hcode, hc⟩ := h.exists_of_inBounds hlow hhigh hbits
    refine ⟨c, hcode, continuation code (k + 1), ?_⟩
    rw [List.reverse_cons, List.append_assoc, hc]
    rfl

theorem complete (h : o.Sound 0) {b : UInt8} (hlow : o.low ≤ b) (hhigh : b ≤ o.high) :
    utf8EncodeChar (Char.ofNat (o.bits * 64 + (b.toNat - 0x80))) = o.bytes.reverse ++ [b] := by
  obtain ⟨c, hcode, hc⟩ := h.exists_of_inBounds hlow hhigh (Nat.div_one _)
  rw [← hcode, Char.ofNat_toNat]
  exact hc

/-- **An open character is stray** when no byte of it follows. -/
theorem strayBefore (h : o.Sound k) {rest : List UInt8}
    (hrest : ∀ b ∈ rest.head?, ¬(o.low ≤ b ∧ b ≤ o.high)) :
    StrayBefore o.bytes.reverse rest where
  unreadable c hc := by
    have hbytes : o.bytes.reverse <+: utf8EncodeChar c := by
      rcases List.prefix_or_prefix_of_prefix hc (List.prefix_append _ rest) with hshort | hlong
      · obtain ⟨d, hd⟩ := h.beginsChar
        rwa [eq_of_utf8EncodeChar_isPrefix (hshort.trans hd)]
      · exact hlong
    -- so the next byte of the encoding follows, and it is within the bounds
    obtain ⟨hencoding, -⟩ := h.of_encoding c hbytes
    rw [hencoding, List.prefix_append_right_inj] at hc
    obtain ⟨more, rfl⟩ := hc
    refine hrest _ rfl (h.inBounds_of_beginsChar ⟨c, ?_⟩)
    rw [hencoding, List.prefix_append_right_inj]
    exact ⟨_, rfl⟩
  begins := .inl ⟨mt List.reverse_eq_nil_iff.mp h.nonempty, h.beginsChar⟩
  longest b hb hbegins := hrest b hb (h.inBounds_of_beginsChar hbegins)

end OpenChar.Sound

/-! ## What the machine finds -/

/-- **What parts go on with**: behind those that are cut off, the latest
first, stand those of some bytes. -/
def GoOnWith (cutOff : List Utf8Part) (bytes : List UInt8) (parts : List Utf8Part) : Prop :=
  ∃ more, parts = cutOff.reverse ++ more ∧ Utf8Split bytes more

/-- A part that is cut off is one of the bytes it comes from. -/
theorem GoOnWith.of_cons {cutOff parts : List Utf8Part} {p : Utf8Part} {bytes rest : List UInt8}
    (h : GoOnWith (p :: cutOff) rest parts)
    (hp : ∀ more, Utf8Split rest more → Utf8Split bytes (p :: more)) :
    GoOnWith cutOff bytes parts := by
  obtain ⟨more, rfl, hmore⟩ := h
  refine ⟨p :: more, ?_, hp more hmore⟩
  rw [List.reverse_cons, List.append_assoc, List.singleton_append]

namespace Utf8Decoder

/-- **The machine finds the parts of bytes**, those of an open character
included. By induction on the bytes, for any state that is sound: what the
machine has in hand is the beginning of an encoding, and the next byte
goes on with it, completes it, or makes it stray. -/
theorem goOnWith_finish (bytes : List UInt8) :
    (∀ cutOff, GoOnWith cutOff bytes (bytes.foldl feed ⟨cutOff, none⟩).finish) ∧
    (∀ cutOff o k, o.Sound k →
      GoOnWith cutOff (o.bytes.reverse ++ bytes) (bytes.foldl feed ⟨cutOff, some o⟩).finish) := by
  induction bytes with
  | nil =>
    refine ⟨fun cutOff => ⟨[], (List.append_nil _).symm, .nil⟩, fun cutOff o k ho => ?_⟩
    exact ⟨[.stray o.bytes.reverse], List.reverse_cons, .stray (ho.strayBefore nofun) .nil⟩
  | cons b bytes ih =>
    obtain ⟨hclosed, hopen⟩ := ih
    have hlead : ∀ cutOff,
        GoOnWith cutOff (b :: bytes) (bytes.foldl feed (lead cutOff b)).finish := by
      intro cutOff
      have hsound := LeadByte.sound_ofByte b
      unfold lead
      cases hbyte : LeadByte.ofByte b with
      | single c =>
        have hc : utf8EncodeChar c = [b] := by rwa [hbyte] at hsound
        refine (hclosed (.char c :: cutOff)).of_cons fun more hmore => ?_
        have hsplit := Utf8Split.char c hmore
        rwa [hc] at hsplit
      | opening o =>
        rw [hbyte] at hsound
        obtain ⟨⟨k, ho⟩, hbytes⟩ := hsound
        have hgo := hopen cutOff o k ho
        rwa [hbytes] at hgo
      | invalid =>
        have hb : ¬BeginsChar [b] := by rwa [hbyte] at hsound
        refine (hclosed (.stray [b] :: cutOff)).of_cons fun more hmore => ?_
        exact .stray (strayBefore_singleton hb bytes) hmore
    refine ⟨hlead, fun cutOff o k ho => ?_⟩
    rw [List.foldl_cons]
    by_cases hb : o.low ≤ b ∧ b ≤ o.high
    · cases k with
      | zero =>
        have hfeed : feed ⟨cutOff, some o⟩ b
            = ⟨.char (Char.ofNat (o.bits * 64 + (b.toNat - 0x80))) :: cutOff, none⟩ := by
          simp [feed, hb, ho.missing]
        rw [hfeed]
        refine (hclosed _).of_cons fun more hmore => ?_
        have hsplit := Utf8Split.char (Char.ofNat (o.bits * 64 + (b.toNat - 0x80))) hmore
        rwa [ho.complete hb.1 hb.2, List.append_assoc] at hsplit
      | succ k =>
        have hfeed : feed ⟨cutOff, some o⟩ b = ⟨cutOff,
            some ⟨o.bits * 64 + (b.toNat - 0x80), k + 1, 0x80, 0xbf, b :: o.bytes⟩⟩ := by
          simp [feed, hb, ho.missing]
        have hgo := hopen cutOff _ k (ho.goOn hb.1 hb.2)
        rwa [List.reverse_cons, List.append_assoc, ← hfeed] at hgo
    · have hfeed : feed ⟨cutOff, some o⟩ b = lead (.stray o.bytes.reverse :: cutOff) b :=
        if_neg (by simpa using hb)
      rw [hfeed]
      refine (hlead (.stray o.bytes.reverse :: cutOff)).of_cons fun more hmore => ?_
      refine .stray (ho.strayBefore ?_) hmore
      rintro _ ⟨⟩
      exact hb

end Utf8Decoder

/-- **The parts of bytes are the ones they fall into.** -/
theorem utf8Parts_eq_iff {bytes : List UInt8} {parts : List Utf8Part} :
    utf8Parts bytes = parts ↔ Utf8Split bytes parts := by
  obtain ⟨found, hfound, hsplit⟩ := (Utf8Decoder.goOnWith_finish bytes).1 []
  have hparts : utf8Parts bytes = found := hfound
  exact ⟨fun h => h ▸ hparts ▸ hsplit, fun h => hparts.trans (hsplit.unique h)⟩

/-- **What bytes are shown as**: their characters, and a replacement for each
stray part. -/
theorem lenientChars_eq_iff {bytes : List UInt8} {chars : List Char} :
    lenientChars bytes = chars ↔
      ∃ parts, Utf8Split bytes parts ∧ parts.map Utf8Part.shown = chars := by
  constructor
  · exact fun h => ⟨utf8Parts bytes, utf8Parts_eq_iff.mp rfl, h⟩
  · rintro ⟨parts, hsplit, rfl⟩
    exact congrArg (List.map Utf8Part.shown) (utf8Parts_eq_iff.mpr hsplit)

/-! ## Line ends

The byte that ends a line is in no encoding but its own. So it ends a stray
part just as the end of the bytes does, and what stands behind it is decoded
as if nothing stood in front. -/

theorem le_of_mem_continuation {code k : Nat} {b : UInt8} (h : b ∈ continuation code k) :
    0x80 ≤ b.toNat := by
  induction k with
  | zero => cases h
  | succ k ih =>
    rcases List.mem_cons.mp h with rfl | h
    · rw [toNat_ofNat_of_lt (by omega)]
      exact Nat.le_add_left _ _
    · exact ih h

theorem utf8EncodeChar_lineEnd : utf8EncodeChar '\n' = [0x0a] := rfl

/-- **The byte of a line's end encodes nothing else.** -/
theorem eq_lineEnd_of_mem {c : Char} (h : 0x0a ∈ utf8EncodeChar c) : c = '\n' := by
  obtain ⟨b, k, hlead, hencoding⟩ := exists_leads c
  rw [hencoding] at h
  rcases List.mem_cons.mp h with rfl | h
  · have hcode : c.toNat = 10 := by
      unfold Leads at hlead
      simp only [UInt8.reduceToNat] at hlead
      omega
    rw [← Char.ofNat_toNat c, hcode]
  · exact absurd (le_of_mem_continuation h) (by decide)

/-- No bytes in front of a line's end begin a character with it. -/
theorem not_beginsChar_lineEnd {bytes : List UInt8} (hbytes : bytes ≠ []) :
    ¬BeginsChar (bytes ++ [0x0a]) := by
  rintro ⟨c, hc⟩
  have hmem : 0x0a ∈ utf8EncodeChar c := hc.subset (List.mem_append_right _ List.mem_cons_self)
  rw [eq_lineEnd_of_mem hmem, utf8EncodeChar_lineEnd] at hc
  have hlength := hc.length_le
  rw [List.length_append] at hlength
  exact hbytes (List.length_eq_zero_iff.mp (Nat.le_zero.mp (Nat.le_of_succ_le_succ hlength)))

/-- **A line's end closes a stray part** as the end of the bytes does. -/
theorem StrayBefore.lineEnd {bytes rest : List UInt8} (h : StrayBefore bytes rest)
    (more : List UInt8) : StrayBefore bytes (rest ++ 0x0a :: more) where
  unreadable c hc := by
    rw [← List.append_assoc] at hc
    rcases List.prefix_or_prefix_of_prefix hc (List.prefix_append _ _) with hshort | hlong
    · exact h.unreadable c hshort
    · -- a longer encoding would have the line's end in it
      obtain ⟨tail, htail⟩ := hlong
      rw [← htail, List.prefix_append_right_inj] at hc
      cases tail with
      | nil => exact h.unreadable c (htail ▸ List.append_nil _ ▸ List.prefix_rfl)
      | cons b tail =>
        obtain rfl : b = 0x0a := (List.cons_prefix_cons.mp hc).1
        have hne : bytes ++ rest ≠ [] := List.append_ne_nil_of_left_ne_nil h.ne_nil rest
        refine not_beginsChar_lineEnd hne ⟨c, tail, ?_⟩
        rw [← htail, List.append_assoc, List.singleton_append]
  begins := h.begins
  longest b hb := by
    cases rest with
    | nil =>
      cases hb
      exact not_beginsChar_lineEnd h.ne_nil
    | cons b' rest => exact h.longest b hb

/-- The parts of bytes with a line's end in them. -/
theorem Utf8Split.lineEnd {a b : List UInt8} {as bs : List Utf8Part} (ha : Utf8Split a as)
    (hb : Utf8Split b bs) : Utf8Split (a ++ 0x0a :: b) (as ++ .char '\n' :: bs) := by
  induction ha with
  | nil => exact .char '\n' hb
  | char c _ ih =>
    rw [List.append_assoc]
    exact .char c ih
  | stray hstray _ ih =>
    rw [List.append_assoc]
    exact .stray (hstray.lineEnd b) ih

/-- **Decoding passes a line's end.** -/
theorem lenientChars_append_lineEnd (a b : List UInt8) :
    lenientChars (a ++ 0x0a :: b) = lenientChars a ++ '\n' :: lenientChars b := by
  refine lenientChars_eq_iff.mpr
    ⟨_, (utf8Parts_eq_iff.mp rfl).lineEnd (utf8Parts_eq_iff.mp rfl), ?_⟩
  rw [List.map_append]
  rfl

/-- A line's end is shown only where its byte is. -/
theorem lineEnd_mem_of_mem_lenientChars {bytes : List UInt8} (h : '\n' ∈ lenientChars bytes) :
    0x0a ∈ bytes := by
  have hsplit : Utf8Split bytes (utf8Parts bytes) := utf8Parts_eq_iff.mp rfl
  rw [lenientChars] at h
  generalize utf8Parts bytes = parts at hsplit h
  induction hsplit with
  | nil => cases h
  | char c _ ih =>
    rcases List.mem_cons.mp h with rfl | h
    · exact List.mem_append_left _ List.mem_cons_self
    · exact List.mem_append_right _ (ih h)
  | stray _ _ ih =>
    rcases List.mem_cons.mp h with hreplaced | h
    · have hne : '\n' ≠ replacementChar := by decide
      exact absurd hreplaced hne
    · exact List.mem_append_right _ (ih h)

end Specimen
