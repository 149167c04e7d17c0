import TapeMachine.Command.Response
import TapeMachine.Proofs.Utf8

/-!
# The program in a sequence of bytes

Every symbol is an ASCII character. The bytes of a character that is not are all in the upper half,
and so are bytes that spell no character. So the program is the sequence of the symbol bytes
(`map_some_programOfBytes`), whatever is between them.
-/

namespace TapeMachine

variable {b : UInt8} {c : Char} {part rest bytes : List UInt8} {text : List Char}

/-! ### Symbol bytes -/

def symbolBytes : List UInt8 := [0x3E, 0x3C, 0x2B, 0x2D, 0x2E, 0x5B, 0x5D]

/-- The symbol bytes among `bytes`, in order. -/
def symbolsOf (bytes : List UInt8) : List UInt8 := bytes.filter (· ∈ symbolBytes)

/-- The instruction that a byte stands for, if it is a symbol. -/
def instrOf (b : UInt8) : Option Instr := Instr.ofSymbol? (Char.ofNat b.toNat)

lemma lt_of_mem_symbolBytes (h : b ∈ symbolBytes) : b < 0x80 := by
  have hall : symbolBytes.all (· < 0x80) = true := by decide
  exact of_decide_eq_true (List.all_eq_true.mp hall b h)

lemma symbol_toNat (i : Instr) : ∃ b ∈ symbolBytes, i.symbol.toNat = b.toNat := by
  refine ⟨UInt8.ofNat i.symbol.toNat, ?_⟩
  cases i with
  | act a => cases a <;> decide
  | loopBegin => decide
  | loopEnd => decide

lemma exists_instrOf (h : b ∈ symbolBytes) : ∃ i, instrOf b = some i := by
  have hall : symbolBytes.all (fun b => (instrOf b).isSome) = true := by decide
  exact Option.isSome_iff_exists.mp (List.all_eq_true.mp hall b h)

lemma instrOf_eq_none (hb : b < 0x80) (h : b ∉ symbolBytes) : instrOf b = none := by
  have hlt : b.toNat < 0x80 := UInt8.lt_iff_toNat_lt.mp hb
  rw [Option.eq_none_iff_forall_ne_some]
  intro i hi
  obtain ⟨b', hb', hnat⟩ := symbol_toNat i
  rw [← Instr.ofSymbol?_eq_some_iff.mp hi, Utf8.toNat_ofNat (Or.inl (by omega))] at hnat
  exact h (UInt8.toNat_inj.mp hnat ▸ hb')

lemma ofSymbol?_eq_none (h : 0x80 ≤ c.toNat) : Instr.ofSymbol? c = none := by
  rw [Option.eq_none_iff_forall_ne_some]
  intro i hi
  obtain ⟨b, hb, hnat⟩ := symbol_toNat i
  have hlt := UInt8.lt_iff_toNat_lt.mp (lt_of_mem_symbolBytes hb)
  rw [← Instr.ofSymbol?_eq_some_iff.mp hi] at hnat
  simp only [UInt8.reduceToNat] at hlt
  omega

lemma symbolsOf_append (part rest : List UInt8) :
    symbolsOf (part ++ rest) = symbolsOf part ++ symbolsOf rest :=
  List.filter_append part rest

lemma symbolsOf_eq_nil (h : ∀ b ∈ part, 0x80 ≤ b) : symbolsOf part = [] := by
  rw [symbolsOf, List.filter_eq_nil_iff]
  intro b hb hsymbol
  exact UInt8.not_lt.mpr (h b hb) (lt_of_mem_symbolBytes (of_decide_eq_true hsymbol))

namespace Utf8

lemma upper_of_mem_lastBytes {count n : Nat} (h : b ∈ lastBytes count n) : 0x80 ≤ b := by
  induction count with
  | zero => cases h
  | succ count ih =>
    obtain rfl | h := List.mem_cons.mp h
    · rw [UInt8.le_iff_toNat_le, toNat_lastByte]
      exact Nat.le_add_left 0x80 _
    · exact ih h

lemma encode_cases (c : Char) : (∃ b < 0x80, c = Char.ofNat b.toNat ∧ encode c = [b]) ∨
    0x80 ≤ c.toNat ∧ ∀ b ∈ encode c, 0x80 ≤ b := by
  by_cases hc : c.toNat < 0x80
  · have hnat : (UInt8.ofNat c.toNat).toNat = c.toNat :=
      UInt8.toNat_ofNat_of_lt' (Nat.lt_trans hc (by decide))
    have hb : UInt8.ofNat c.toNat < 0x80 := by
      rw [UInt8.lt_iff_toNat_lt, hnat]
      exact hc
    have hencode := encode_ofNat hb
    rw [hnat, Char.ofNat_toNat] at hencode
    exact Or.inl ⟨UInt8.ofNat c.toNat, hb, by rw [hnat, Char.ofNat_toNat], hencode⟩
  · refine Or.inr ⟨Nat.le_of_not_lt hc, fun b hb => ?_⟩
    rw [encode_eq] at hb
    obtain rfl | hb := List.mem_cons.mp hb
    · rw [UInt8.le_iff_toNat_le, UInt8.toNat_ofNat_of_lt' (firstByte_lt c), firstByte, if_neg hc]
      simp only [UInt8.reduceToNat]
      split_ifs <;> omega
    · exact upper_of_mem_lastBytes hb

lemma Damaged.upper (h : Damaged part rest) (hb : b ∈ part) : 0x80 ≤ b := by
  obtain hone | ⟨c, hc⟩ := h.begins
  · obtain ⟨x, rfl⟩ := List.length_eq_one_iff.mp hone
    obtain rfl := List.mem_singleton.mp hb
    rw [← UInt8.not_lt]
    intro hlt
    refine h.spells_none (Char.ofNat b.toNat) ?_
    rw [encode_ofNat hlt]
    exact List.prefix_append [b] rest
  · obtain ⟨x, -, -, hencode⟩ | ⟨-, hupper⟩ := encode_cases c
    · -- the part would be all of the encoding
      have hlength : (encode c).length ≤ part.length := by
        rw [hencode]
        exact List.length_pos_of_mem hb
      rw [hc.eq_of_length_le hlength] at h
      exact absurd (List.prefix_append _ _) (h.spells_none c)
    · exact hupper b (hc.subset hb)

/-- The symbols in a text are the symbol bytes of what it is spelled with. -/
theorem Spelled.map_some_filterMap (h : Spelled bytes text) :
    (text.filterMap Instr.ofSymbol?).map some = (symbolsOf bytes).map instrOf := by
  induction h with
  | nil => rfl
  | char c h ih =>
    rw [symbolsOf_append, List.map_append]
    obtain ⟨b, hb, hchar, hencode⟩ | ⟨hc, hupper⟩ := encode_cases c
    · have hinstr : Instr.ofSymbol? c = instrOf b := by rw [hchar, instrOf]
      rw [hencode, symbolsOf]
      by_cases hsymbol : b ∈ symbolBytes
      · obtain ⟨i, hi⟩ := exists_instrOf hsymbol
        rw [List.filterMap_cons_some (hinstr.trans hi), List.map_cons, ih,
          List.filter_singleton, decide_eq_true hsymbol, cond_true, List.map_singleton, hi]
        rfl
      · rw [List.filterMap_cons_none (hinstr.trans (instrOf_eq_none hb hsymbol)), ih,
          List.filter_singleton, decide_eq_false hsymbol]
        rfl
    · rw [List.filterMap_cons_none (ofSymbol?_eq_none hc), ih, symbolsOf_eq_nil hupper]
      rfl
  | damaged hd h ih =>
    rw [symbolsOf_append, symbolsOf_eq_nil fun b => hd.upper,
      List.filterMap_cons_none (ofSymbol?_eq_none (by decide)), ih]
    rfl

end Utf8

namespace Command

variable {bytes bytes' : Array UInt8}

/-- The instructions of the program in some bytes are what the symbol bytes stand for. -/
theorem map_some_programOfBytes (bytes : Array UInt8) :
    (programOfBytes bytes).toList.map some = (symbolsOf bytes.toList).map instrOf := by
  have h : Utf8.Spelled bytes.toList (Utf8.decode bytes).toList := Utf8.spelled_iff_decode.mpr rfl
  rw [← h.map_some_filterMap]
  rfl

lemma programOfBytes_congr (h : symbolsOf bytes.toList = symbolsOf bytes'.toList) :
    programOfBytes bytes = programOfBytes bytes' := by
  apply Program.ext
  apply Array.toList_inj.mp
  apply (List.map_inj_right fun _ _ => Option.some.inj).mp
  exact (map_some_programOfBytes bytes).trans (h ▸ (map_some_programOfBytes bytes').symm)

lemma programOfBytes_encodeSource (instrs : List Instr) :
    programOfBytes (encodeSource instrs).toUTF8.data = .ofList instrs := by
  rw [programOfBytes, Utf8.decode_toUTF8, Program.ofSource, decodeSource_encodeSource]

end Command

end TapeMachine
