import Mathlib.Algebra.Group.Nat.Defs
import Mathlib.Data.List.Basic
import Mathlib.Tactic.Common
import TapeMachine.Text.Utf8

/-!
# What damaged UTF-8 stands for

`Spelled bytes text` says what bytes stand for, without a decoder: the encoding of a character
stands for that character, and where no character is encoded, the longest bytes that could begin
one, or a single byte if none could, stand for U+FFFD. The main statements are `spelled_iff_decode`,
that the decoder finds just that text, and `decode_toUTF8`, that it reads what is encoded.

The invariant that carries the proof is `Reads`: of the bytes read of a character in progress and
what the decoder knows of it. It says that the characters whose encoding begins with these bytes are
those with a number that fits.
-/

namespace TapeMachine.Utf8

abbrev encode (c : Char) : List UInt8 := String.utf8EncodeChar c

/-- Some character has an encoding that begins like this. -/
def Begins (part : List UInt8) : Prop := ∃ c, part <+: encode c

/-- Where `part` and behind it `rest` stand, no character is encoded, and `part` is as much as could
begin one, at least one byte. -/
structure Damaged (part rest : List UInt8) : Prop where
  ne_nil : part ≠ []
  spells_none : ∀ c, ¬encode c <+: part ++ rest
  begins : part.length = 1 ∨ Begins part
  longest : ∀ longer, longer <+: part ++ rest → Begins longer → longer.length ≤ part.length

/-- The text that bytes stand for. -/
inductive Spelled : List UInt8 → List Char → Prop
  | nil : Spelled [] []
  | char {rest : List UInt8} {text : List Char} (c : Char) (h : Spelled rest text) :
      Spelled (encode c ++ rest) (c :: text)
  | damaged {part rest : List UInt8} {text : List Char} (hd : Damaged part rest)
      (h : Spelled rest text) : Spelled (part ++ rest) (replacement :: text)

variable {b : UInt8} {c c' : Char} {n k : Nat} {read part rest bytes : List UInt8}
  {text : List Char} {u : Unfinished}

/-! ### Encodings in numbers -/

/-- The last `count` bytes of the encoding of the character with number `n`. -/
def lastBytes : (count n : Nat) → List UInt8
  | 0, _ => []
  | count + 1, n => UInt8.ofNat (n / 64 ^ count % 64 + 0x80) :: lastBytes count n

/-- How many bytes the encoding of the character with number `n` has behind the first. -/
def further (n : Nat) : Nat :=
  if n < 0x80 then 0 else if n < 0x800 then 1 else if n < 0x10000 then 2 else 3

def firstByte (n : Nat) : Nat :=
  if n < 0x80 then n
  else if n < 0x800 then n / 64 + 0xC0
  else if n < 0x10000 then n / 4096 + 0xE0
  else n / 262144 + 0xF0

lemma toNat_lt (c : Char) : c.toNat < 0x110000 := by
  have h := c.valid
  change UInt32.isValidChar c.val at h
  simp only [UInt32.isValidChar, Nat.isValidChar] at h
  change c.val.toNat < _
  omega

lemma toNat_ofNat (h : n.isValidChar) : (Char.ofNat n).toNat = n := by
  rw [Char.ofNat, dif_pos h]
  rfl

lemma encode_eq (c : Char) :
    encode c = UInt8.ofNat (firstByte c.toNat) :: lastBytes (further c.toNat) c.toNat := by
  have hlt := toNat_lt c
  change c.val.toNat < _ at hlt
  change String.utf8EncodeChar c = UInt8.ofNat (firstByte c.val.toNat) ::
    lastBytes (further c.val.toNat) c.val.toNat
  unfold String.utf8EncodeChar firstByte further
  generalize c.val.toNat = n at *
  by_cases h₁ : n < 0x80
  · have h₁' : n ≤ 127 := by omega
    simp [h₁, h₁', lastBytes]
  have h₁' : ¬n ≤ 127 := by omega
  by_cases h₂ : n < 0x800
  · have h₂' : n ≤ 2047 := by omega
    have hfirst : n / 64 % 32 = n / 64 := Nat.mod_eq_of_lt (by omega)
    simp [h₁, h₁', h₂, h₂', hfirst, lastBytes]
  have h₂' : ¬n ≤ 2047 := by omega
  by_cases h₃ : n < 0x10000
  · have h₃' : n ≤ 65535 := by omega
    have hfirst : n / 4096 % 16 = n / 4096 := Nat.mod_eq_of_lt (by omega)
    simp [h₁, h₁', h₂, h₂', h₃, h₃', hfirst, lastBytes]
  · have h₃' : ¬n ≤ 65535 := by omega
    have hfirst : n / 262144 % 8 = n / 262144 := Nat.mod_eq_of_lt (by omega)
    simp [h₁, h₁', h₂, h₂', h₃, h₃', hfirst, lastBytes]

/-! ### What the decoder knows between bytes -/

/-- A number that agrees with what is known of the character in progress. -/
def Unfinished.Fits (u : Unfinished) (n : Nat) : Prop :=
  n / 64 ^ u.owed = u.value ∧ ∀ b ∈ (lastBytes u.owed n).head?, u.low ≤ b ∧ b ≤ u.high

/-- The bytes `read` of the character in progress have been read and `u` is known of it: the
characters that begin like this are those with a number that fits, and none is complete. -/
structure Reads (read : List UInt8) (u : Unfinished) : Prop where
  ne_nil : read ≠ []
  owed_pos : 0 < u.owed
  low_ge : 0x80 ≤ u.low
  low_le : u.low ≤ u.high
  high_le : u.high ≤ 0xBF
  spells : ∀ n, u.Fits n → ∃ c : Char, c.toNat = n ∧ encode c = read ++ lastBytes u.owed n
  fits : ∀ c, read <+: encode c → u.Fits c.toNat
  short : ∀ c, ¬encode c <+: read

lemma toNat_lastByte (n : Nat) : (UInt8.ofNat (n % 64 + 0x80)).toNat = n % 64 + 0x80 :=
  UInt8.toNat_ofNat_of_lt' (by rw [UInt8.size]; omega)

lemma Unfinished.fits_iff (h : u.owed = k + 1) : u.Fits n ↔ n / 64 ^ (k + 1) = u.value ∧
    u.low.toNat ≤ n / 64 ^ k % 64 + 0x80 ∧ n / 64 ^ k % 64 + 0x80 ≤ u.high.toNat := by
  rw [Fits, h]
  simp only [lastBytes, List.head?_cons, Option.mem_some_iff, forall_eq', UInt8.le_iff_toNat_le,
    toNat_lastByte]

lemma firstByte_lt (c : Char) : firstByte c.toNat < 256 := by
  have hlt := toNat_lt c
  unfold firstByte
  split_ifs <;> omega

lemma firstByte_eq (h : [b] <+: encode c) : firstByte c.toNat = b.toNat := by
  rw [encode_eq, List.cons_prefix_cons] at h
  rw [h.1, UInt8.toNat_ofNat_of_lt' (firstByte_lt c)]

lemma reads_lead {low high : UInt8} {value : Nat} (hb : 0x80 ≤ b.toNat) (hlow : 0x80 ≤ low)
    (hle : low ≤ high) (hhigh : high ≤ 0xBF)
    (hspells : ∀ n, n / 64 ^ (k + 1) = value → low.toNat ≤ n / 64 ^ k % 64 + 0x80 →
      n / 64 ^ k % 64 + 0x80 ≤ high.toNat →
        n.isValidChar ∧ further n = k + 1 ∧ firstByte n = b.toNat)
    (hfits : ∀ n, n.isValidChar → firstByte n = b.toNat → n / 64 ^ (k + 1) = value ∧
      low.toNat ≤ n / 64 ^ k % 64 + 0x80 ∧ n / 64 ^ k % 64 + 0x80 ≤ high.toNat) :
    Reads [b] ⟨k + 1, low, high, value⟩ where
  ne_nil := List.cons_ne_nil b []
  owed_pos := Nat.succ_pos k
  low_ge := hlow
  low_le := hle
  high_le := hhigh
  spells := by
    intro n hn
    obtain ⟨hvalue, hl, hh⟩ := (Unfinished.fits_iff rfl).mp hn
    obtain ⟨hvalid, hfurther, hfirst⟩ := hspells n hvalue hl hh
    refine ⟨Char.ofNat n, toNat_ofNat hvalid, ?_⟩
    rw [encode_eq, toNat_ofNat hvalid, hfurther, hfirst, UInt8.ofNat_toNat]
    rfl
  fits := by
    intro c h
    exact (Unfinished.fits_iff rfl).mpr (hfits c.toNat c.valid (firstByte_eq h))
  short := by
    intro c h
    -- a whole encoding of one byte is an ASCII character
    rw [encode_eq, List.cons_prefix_cons, List.prefix_nil] at h
    obtain ⟨hfirst, hlast⟩ := h
    have hbyte : firstByte c.toNat = b.toNat := by
      rw [← hfirst, UInt8.toNat_ofNat_of_lt' (firstByte_lt c)]
    unfold further at hlast
    unfold firstByte at hbyte
    split_ifs at hlast hbyte <;> first | omega | cases hlast

lemma lead_cases (hb : 0x80 ≤ b) : (lead b = ([replacement], none) ∧ ¬Begins [b]) ∨
    ∃ u, lead b = ([], some u) ∧ Reads [b] u := by
  have hn : 0x80 ≤ b.toNat := UInt8.le_iff_toNat_le.mp hb
  unfold lead
  simp only [UInt8.lt_iff_toNat_lt, ← UInt8.toNat_inj, UInt8.reduceToNat]
  rw [if_neg (by omega)]
  by_cases hnone : b.toNat < 0xC2 ∨ 0xF4 < b.toNat
  · refine Or.inl ⟨by split_ifs <;> first | rfl | omega, ?_⟩
    rintro ⟨c, hc⟩
    have hlt := toNat_lt c
    have hfirst := firstByte_eq hc
    unfold firstByte at hfirst
    split_ifs at hfirst <;> omega
  · rw [if_neg (by omega)]
    -- one case for each row of the table of well-formed sequences
    split_ifs
    all_goals try omega
    all_goals
      refine Or.inr ⟨_, rfl, reads_lead hn (by decide) (by decide) (by decide) ?_ ?_⟩
      · intro n
        simp only [Nat.isValidChar, further, firstByte, UInt8.reduceToNat, Nat.reducePow,
          Nat.reduceAdd]
        intros
        split_ifs <;> omega
      · intro n
        simp only [Nat.isValidChar, firstByte, UInt8.reduceToNat, Nat.reducePow, Nat.reduceAdd]
        intros
        split_ifs at * <;> omega

namespace Reads

lemma exists_owed (h : Reads read u) : ∃ k, u.owed = k + 1 :=
  Nat.exists_eq_succ_of_ne_zero (Nat.pos_iff_ne_zero.mp h.owed_pos)

lemma encode_eq_append (h : Reads read u) (hc : read <+: encode c) :
    encode c = read ++ lastBytes u.owed c.toNat := by
  obtain ⟨c', hnat, hencode⟩ := h.spells c.toNat (h.fits c hc)
  have heq : c' = c := by rw [← Char.ofNat_toNat c', hnat, Char.ofNat_toNat]
  rw [← heq, hencode, hnat]

lemma next_byte (h : Reads read u) (hc : read ++ [b] <+: encode c) (hk : u.owed = k + 1) :
    b = UInt8.ofNat (c.toNat / 64 ^ k % 64 + 0x80) ∧ u.low ≤ b ∧ b ≤ u.high := by
  have hread := (List.prefix_append read [b]).trans hc
  have hfits := h.fits c hread
  rw [h.encode_eq_append hread, hk, lastBytes, List.prefix_append_right_inj,
    List.cons_prefix_cons] at hc
  rw [Unfinished.Fits, hk, lastBytes] at hfits
  refine ⟨hc.1, ?_⟩
  rw [hc.1]
  exact hfits.2 _ rfl

lemma toNat_bounds (h : Reads read u) (hlow : u.low ≤ b) (hhigh : b ≤ u.high) :
    0x80 ≤ b.toNat ∧ b.toNat ≤ 0xBF :=
  ⟨UInt8.le_iff_toNat_le.mp (UInt8.le_trans h.low_ge hlow),
    UInt8.le_iff_toNat_le.mp (UInt8.le_trans hhigh h.high_le)⟩

lemma fits_of_byte (h : Reads read u) (hlow : u.low ≤ b) (hhigh : b ≤ u.high)
    (hk : u.owed = k + 1) (hn : n / 64 ^ k = u.value * 64 + (b.toNat - 0x80)) :
    u.Fits n ∧ lastBytes u.owed n = b :: lastBytes k n := by
  obtain ⟨hge, hle⟩ := h.toNat_bounds hlow hhigh
  have hbyte : n / 64 ^ k % 64 + 0x80 = b.toNat := by omega
  constructor
  · rw [Unfinished.fits_iff hk, Nat.pow_succ, ← Nat.div_div_eq_div_mul, hbyte]
    exact ⟨by omega, UInt8.le_iff_toNat_le.mp hlow, UInt8.le_iff_toNat_le.mp hhigh⟩
  · rw [hk, lastBytes, hbyte, UInt8.ofNat_toNat]

lemma begins (h : Reads read u) : Begins read := by
  obtain ⟨k, hk⟩ := h.exists_owed
  -- one whose next byte is the least that it can be, with zeros behind it
  obtain ⟨c, -, hencode⟩ := h.spells _ (h.fits_of_byte (UInt8.le_refl u.low) h.low_le hk
    (Nat.mul_div_cancel _ (Nat.pow_pos (by decide)))).1
  exact ⟨c, hencode ▸ List.prefix_append read _⟩

/-- A byte in the bounds that is the last one completes a character. -/
lemma complete (h : Reads read u) (hlow : u.low ≤ b) (hhigh : b ≤ u.high) (hk : u.owed = 1) :
    encode (Char.ofNat (u.value * 64 + (b.toNat - 0x80))) = read ++ [b] := by
  obtain ⟨hfits, hlast⟩ := h.fits_of_byte hlow hhigh hk (Nat.div_one _)
  obtain ⟨c, hnat, hencode⟩ := h.spells _ hfits
  rw [← hnat, Char.ofNat_toNat, hencode, hlast, lastBytes]

/-- A byte in the bounds that is not the last one is a byte more of the character. -/
lemma next (h : Reads read u) (hlow : u.low ≤ b) (hhigh : b ≤ u.high) (hk : u.owed = k + 2) :
    Reads (read ++ [b]) ⟨k + 1, 0x80, 0xBF, u.value * 64 + (b.toNat - 0x80)⟩ where
  ne_nil := by simp
  owed_pos := Nat.succ_pos k
  low_ge := UInt8.le_refl _
  low_le := (by decide : (0x80 : UInt8) ≤ 0xBF)
  high_le := UInt8.le_refl _
  spells := by
    intro n hn
    obtain ⟨hfits, hlast⟩ := h.fits_of_byte hlow hhigh hk hn.1
    obtain ⟨c, hnat, hencode⟩ := h.spells n hfits
    exact ⟨c, hnat, by rw [hencode, hlast, List.append_assoc]; rfl⟩
  fits := by
    intro c hc
    obtain ⟨hbyte, -⟩ := h.next_byte hc hk
    have hvalue := ((Unfinished.fits_iff hk).mp (h.fits c ((List.prefix_append _ _).trans hc))).1
    rw [Nat.pow_succ, ← Nat.div_div_eq_div_mul] at hvalue
    rw [Unfinished.fits_iff rfl, hbyte, toNat_lastByte]
    simp only [UInt8.reduceToNat]
    omega
  short := by
    intro c hc
    obtain heq | hshort := List.prefix_concat_iff.mp hc
    · have hlast := h.encode_eq_append (heq ▸ List.prefix_append read [b])
      rw [heq, List.append_cancel_left_eq, hk] at hlast
      cases hlast
    · exact h.short c hshort

/-- No character begins with more than the bytes read if no byte in the bounds follows. -/
lemma length_le (h : Reads read u) (hrest : ∀ b ∈ rest.head?, ¬(u.low ≤ b ∧ b ≤ u.high))
    (hpart : part <+: read ++ rest) (hc : part <+: encode c) : part.length ≤ read.length := by
  by_contra hlt
  obtain ⟨k, hk⟩ := h.exists_owed
  obtain ⟨more, rfl⟩ := List.prefix_of_prefix_length_le (List.prefix_append read rest) hpart
    (Nat.le_of_not_le hlt)
  rw [List.prefix_append_right_inj] at hpart
  cases more with
  | nil => simp at hlt
  | cons b more =>
    obtain ⟨rest, rfl⟩ := hpart
    have hnext : read ++ [b] <+: encode c := by
      refine List.IsPrefix.trans ?_ hc
      rw [List.prefix_append_right_inj]
      exact List.prefix_append [b] more
    exact hrest b rfl (h.next_byte hnext hk).2

/-- Where the bytes are at an end or a byte is out of the bounds, those read are damaged. -/
lemma damaged (h : Reads read u) (hrest : ∀ b ∈ rest.head?, ¬(u.low ≤ b ∧ b ≤ u.high)) :
    Damaged read rest where
  ne_nil := h.ne_nil
  spells_none := by
    intro c hc
    have hlength := h.length_le hrest hc List.prefix_rfl
    exact h.short c (List.prefix_of_prefix_length_le hc (List.prefix_append read rest) hlength)
  begins := Or.inr h.begins
  longest := fun _ hlonger ⟨_, hc⟩ => h.length_le hrest hlonger hc

end Reads

lemma damaged_of_not_begins (h : ¬Begins [b]) (rest : List UInt8) : Damaged [b] rest := by
  have hnil : ∀ {part : List UInt8}, part <+: b :: rest → Begins part → part = [] := by
    rintro (_ | ⟨x, part⟩) hpart ⟨c, hc⟩
    · rfl
    · obtain ⟨rfl, -⟩ := List.cons_prefix_cons.mp hpart
      exact absurd ⟨c, (List.prefix_append [x] part).trans hc⟩ h
  refine ⟨List.cons_ne_nil b [], fun c hc => ?_, Or.inl rfl, fun longer hlonger hbegins => ?_⟩
  · exact String.utf8EncodeChar_ne_nil (hnil hc ⟨c, List.prefix_rfl⟩)
  · rw [hnil hlonger hbegins]
    exact Nat.zero_le _

/-! ### The decoder -/

/-- The characters that bytes stand for, given the character in progress. -/
def chars (unfinished : Option Unfinished) : List UInt8 → List Char
  | [] => finish unfinished
  | b :: bytes => (feed unfinished b).1 ++ chars (feed unfinished b).2 bytes

lemma toList_foldl_push (text : String) (cs : List Char) :
    (cs.foldl String.push text).toList = text.toList ++ cs := by
  induction cs generalizing text with
  | nil => simp
  | cons c cs ih => simp [ih]

lemma toList_decodeOnto (text : String) (unfinished : Option Unfinished) (bytes : List UInt8) :
    (decodeOnto text unfinished bytes).toList = text.toList ++ chars unfinished bytes := by
  induction bytes generalizing text unfinished with
  | nil => exact toList_foldl_push text (finish unfinished)
  | cons b bytes ih =>
    rw [decodeOnto, chars, ih, toList_foldl_push, List.append_assoc]

lemma toList_decode (bytes : Array UInt8) : (decode bytes).toList = chars none bytes.toList := by
  rw [decode, toList_decodeOnto]
  rfl

lemma encode_ofNat (hb : b < 0x80) : encode (Char.ofNat b.toNat) = [b] := by
  have hlt : b.toNat < 0x80 := UInt8.lt_iff_toNat_lt.mp hb
  rw [encode_eq, toNat_ofNat (Or.inl (by omega))]
  simp [firstByte, further, hlt, lastBytes]

lemma chars_misfit (hrest : ∀ b ∈ bytes.head?, ¬(u.low ≤ b ∧ b ≤ u.high)) :
    chars (some u) bytes = replacement :: chars none bytes := by
  cases bytes with
  | nil => rfl
  | cons b bytes =>
    rw [chars, feed, if_neg (hrest b rfl)]
    rfl

/-- The decoder finds the text that the bytes stand for, also in the middle of a character. -/
theorem spelled_chars (bytes : List UInt8) : Spelled bytes (chars none bytes) ∧
    ∀ read u, Reads read u → Spelled (read ++ bytes) (chars (some u) bytes) := by
  induction bytes with
  | nil =>
    refine ⟨.nil, fun read u h => ?_⟩
    exact .damaged (h.damaged (by simp)) .nil
  | cons b bytes ih =>
    obtain ⟨ihNone, ihSome⟩ := ih
    have hnone : Spelled (b :: bytes) (chars none (b :: bytes)) := by
      rw [chars]
      by_cases hb : b < 0x80
      · rw [feed, lead_ascii hb]
        have h := Spelled.char (Char.ofNat b.toNat) ihNone
        rwa [encode_ofNat hb] at h
      · obtain ⟨hlead, hbegins⟩ | ⟨u, hlead, hreads⟩ := lead_cases (UInt8.not_lt.mp hb)
        · rw [feed, hlead]
          exact .damaged (damaged_of_not_begins hbegins bytes) ihNone
        · rw [feed, hlead]
          exact ihSome [b] u hreads
    refine ⟨hnone, fun read u h => ?_⟩
    by_cases hfit : u.low ≤ b ∧ b ≤ u.high
    · rw [chars, feed, if_pos hfit]
      obtain ⟨k, hk⟩ := h.exists_owed
      cases k with
      | zero =>
        rw [if_pos (Nat.le_of_eq hk)]
        have hchar := Spelled.char (Char.ofNat (u.value * 64 + (b.toNat - 0x80))) ihNone
        rwa [h.complete hfit.1 hfit.2 hk, List.append_assoc] at hchar
      | succ k =>
        have hmore : ¬u.owed ≤ 1 := by omega
        have howed : u.owed - 1 = k + 1 := by omega
        have hnext := ihSome _ _ (h.next hfit.1 hfit.2 hk)
        rw [if_neg hmore, howed]
        rwa [List.append_assoc] at hnext
    · have hmisfit : ∀ x ∈ (b :: bytes).head?, ¬(u.low ≤ x ∧ x ≤ u.high) := by
        rintro x hx
        cases hx
        exact hfit
      rw [chars_misfit hmisfit]
      exact .damaged (h.damaged hmisfit) hnone

/-! ### Only one text -/

lemma encode_prefix_free (h : encode c <+: bytes) (h' : encode c' <+: bytes) : c = c' := by
  obtain ⟨rest, rfl⟩ := h
  obtain ⟨rest', h'⟩ := h'
  have hdecode := ByteArray.utf8DecodeChar?_utf8EncodeChar_append (b := rest.toByteArray) (c := c)
  rw [← List.toByteArray_append, ← h', List.toByteArray_append,
    ByteArray.utf8DecodeChar?_utf8EncodeChar_append] at hdecode
  exact (Option.some_inj.mp hdecode).symm

lemma Damaged.length_le {part' rest' : List UInt8} (h : Damaged part rest)
    (h' : Damaged part' rest') (heq : part ++ rest = part' ++ rest') :
    part'.length ≤ part.length := by
  obtain hone | hbegins := h'.begins
  · rw [hone]
    exact List.length_pos_of_ne_nil h.ne_nil
  · exact h.longest part' (heq ▸ List.prefix_append part' rest') hbegins

lemma Damaged.not_encode (h : Damaged part rest) (heq : part ++ rest = encode c ++ bytes) : False :=
  h.spells_none c (heq ▸ List.prefix_append (encode c) bytes)

/-- Bytes stand for one text: what stands first in them is a character or damaged, not both, and in
each case it is known how much of them it takes. -/
theorem Spelled.unique {text' : List Char} (h : Spelled bytes text) (h' : Spelled bytes text') :
    text = text' := by
  induction h generalizing text' with
  | nil =>
    generalize hbytes : ([] : List UInt8) = bytes at h'
    cases h' with
    | nil => rfl
    | char c h' =>
      exact absurd (List.append_eq_nil_iff.mp hbytes.symm).1 String.utf8EncodeChar_ne_nil
    | damaged hd h' => exact absurd (List.append_eq_nil_iff.mp hbytes.symm).1 hd.ne_nil
  | @char rest text c h ih =>
    generalize hbytes : encode c ++ rest = bytes at h'
    cases h' with
    | nil => exact absurd (List.append_eq_nil_iff.mp hbytes).1 String.utf8EncodeChar_ne_nil
    | char c' h' =>
      obtain rfl := encode_prefix_free (hbytes ▸ List.prefix_append (encode c) rest)
        (List.prefix_append (encode c') _)
      obtain rfl := List.append_cancel_left hbytes
      rw [ih h']
    | damaged hd h' => exact (hd.not_encode hbytes.symm).elim
  | @damaged part rest text hd h ih =>
    generalize hbytes : part ++ rest = bytes at h'
    cases h' with
    | nil => exact absurd (List.append_eq_nil_iff.mp hbytes).1 hd.ne_nil
    | char c' h' => exact (hd.not_encode hbytes).elim
    | damaged hd' h' =>
      have hlength := Nat.le_antisymm (hd'.length_le hd hbytes.symm) (hd.length_le hd' hbytes)
      obtain ⟨rfl, rfl⟩ := List.append_inj hbytes hlength
      rw [ih h']

/-- The decoder finds the one text that the bytes stand for. -/
theorem spelled_iff_decode {bytes : Array UInt8} {text : String} :
    Spelled bytes.toList text.toList ↔ decode bytes = text := by
  have h : Spelled bytes.toList (decode bytes).toList := by
    rw [toList_decode]
    exact (spelled_chars bytes.toList).1
  constructor
  · intro ht
    exact String.toList_inj.mp (h.unique ht)
  · rintro rfl
    exact h

lemma spelled_flatMap_encode (text : List Char) : Spelled (text.flatMap encode) text := by
  induction text with
  | nil => exact .nil
  | cons c text ih => exact .char c ih

/-- What is encoded is read again. -/
theorem decode_toUTF8 (text : String) : decode text.toUTF8.data = text := by
  apply spelled_iff_decode.mp
  have hbytes : text.toUTF8.data.toList = text.toList.flatMap encode := by
    rw [← String.ofList_toList (s := text), String.toUTF8, String.toByteArray_ofList,
      List.utf8Encode, List.data_toByteArray, String.ofList_toList]
  rw [hbytes]
  exact spelled_flatMap_encode text.toList

end TapeMachine.Utf8
