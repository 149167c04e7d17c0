import TapeMachine.Program.Listing
import TapeMachine.Proofs.Address
import TapeMachine.Proofs.Validation
import TapeMachine.Text.Split

/-!
# Reading listings

Nothing is lost in a listing. No line of it holds a line end and no field of a row a tab, so it
falls apart into the lines and fields it was made of (`lines_listing`, `fields_listingRow`), and
each field is read back as what it was written for. What is not a row, such as the first line or the
report on the brackets, does not read as one. So the rows are found again without knowing whether
the brackets match (`rows_listing`), and a program is known by its listing. The main statement is
`listing_lossless`.
-/

namespace TapeMachine

open Text

/-- A row of a listing, when it is read. -/
structure Row where
  address : Nat
  instr : Instr
  partner : Option Nat

/-- The row that a line shows. -/
def Row.ofLine? (line : List Char) : Option Row :=
  match split '\t' line with
  | [address, name] => do
    return ⟨← Hex.ofAddress? address, ← Instr.ofName? (String.ofList name), none⟩
  | [address, name, partner] => do
    return ⟨← Hex.ofAddress? address, ← Instr.ofName? (String.ofList name),
      some (← Hex.ofAddress? partner)⟩
  | _ => none

/-- The rows of a listing. A line that is not a row is passed over. -/
def Row.ofListing (text : String) : List Row := (split '\n' text.toList).filterMap Row.ofLine?

/-- The program that a listing shows. -/
def Program.ofListing (text : String) : Program := .ofList ((Row.ofListing text).map Row.instr)

/-- The row of an instruction of a program. -/
def Program.row (p : Program) (index : Nat) (instr : Instr) : Row :=
  ⟨index, instr, p.partner? index⟩

/-- The fields of a row show the instruction at an index: its address, its name and, of a bracket in
a program whose brackets match, the address of the other end of its loop. -/
structure Program.ShownBy (p : Program) (index : Nat) (instr : Instr) (address name : List Char)
    (operand : Option (List Char)) : Prop where
  address : Hex.Spells index address
  name : Instr.ofName? (String.ofList name) = some instr
  operand_iff : operand.isSome ↔
    p.bracketsMatch = true ∧ (instr = .loopBegin ∨ instr = .loopEnd)
  operand : ∀ field, operand = some field → ∃ target, Hex.Spells target field ∧
    (instr = .loopBegin → p.loopEndOf index = .ok target) ∧
    (instr = .loopEnd → p.loopBeginOf index = .ok target)

/-! ### What the lines are made of -/

/-- A character that divides a listing into lines or a row into fields. -/
def Separates (c : Char) : Prop := c = '\n' ∨ c = '\t'

variable {c : Char}

lemma separates_lineEnd : Separates '\n' := Or.inl rfl

lemma separates_tab : Separates '\t' := Or.inr rfl

lemma Separates.not_mem_name (h : Separates c) (i : Instr) : c ∉ i.name.toList := by
  obtain rfl | rfl := h <;> cases i with
  | act action => cases action <;> decide
  | loopBegin => decide
  | loopEnd => decide

lemma Separates.not_mem_address (h : Separates c) (n : Nat) : c ∉ (Hex.address n).toList := by
  intro hmem
  have hdigit := Hex.mem_address hmem
  obtain rfl | rfl := h <;> exact absurd hdigit (by decide)

lemma not_mem_numeral (h : c.isDigit = false) (n : Nat) : c ∉ (toString n).toList := by
  intro hmem
  have hdigit := Nat.isDigit_of_mem_toDigits (b := 10) (by decide) (by decide)
    (Nat.toList_repr ▸ hmem)
  exact absurd hdigit (by simp [h])

lemma Separates.not_mem_numeral (h : Separates c) (n : Nat) : c ∉ (toString n).toList :=
  TapeMachine.not_mem_numeral (by obtain rfl | rfl := h <;> rfl) n

lemma Separates.not_mem_message (h : Separates c) (e : Imbalance) : c ∉ e.message.toList := by
  cases e with
  | unmatchedEnd index =>
    change c ∉ ("More ] than [ (instruction " ++ toString index ++ ")").toList
    simp only [String.toList_append, List.mem_append, not_or]
    refine ⟨⟨?_, h.not_mem_numeral index⟩, ?_⟩ <;> obtain rfl | rfl := h <;> decide
  | unmatchedBegin index unclosed =>
    change c ∉ ("More [ than ] (" ++ toString unclosed ++
      " unclosed, innermost at instruction " ++ toString index ++ ")").toList
    simp only [String.toList_append, List.mem_append, not_or]
    refine ⟨⟨⟨⟨?_, h.not_mem_numeral unclosed⟩, ?_⟩, h.not_mem_numeral index⟩, ?_⟩ <;>
      obtain rfl | rfl := h <;> decide

namespace Program

variable {p : Program} {index target : Nat} {instr : Instr} {line : String}

/-! ### Lines -/

lemma toList_foldl_lines (lines : List String) (text : String) :
    (lines.foldl (fun text line => text ++ line ++ "\n") text).toList =
      text.toList ++ (lines.map String.toList).flatMap (· ++ ['\n']) := by
  induction lines generalizing text with
  | nil => simp
  | cons line lines ih =>
    rw [List.foldl_cons, ih]
    simp

lemma toList_listingRow (p : Program) (index : Nat) (instr : Instr) :
    (p.listingRow index instr).toList = (Hex.address index).toList ++ '\t' :: (instr.name.toList ++
      ((p.partner? index).map fun target => '\t' :: (Hex.address target).toList).getD []) := by
  rw [listingRow]
  cases p.partner? index <;> simp

lemma mem_listingRows (h : line ∈ p.listingRows) :
    ∃ index instr, line = p.listingRow index instr := by
  rw [listingRows, List.mem_mapIdx] at h
  obtain ⟨index, hindex, rfl⟩ := h
  exact ⟨index, _, rfl⟩

lemma mem_listingTrailer (h : line ∈ p.listingTrailer) :
    ∃ e : Imbalance, line = "; " ++ e.message := by
  rw [listingTrailer, Option.mem_toList, Option.map_eq_some_iff] at h
  obtain ⟨e, -, rfl⟩ := h
  exact ⟨e, rfl⟩

lemma mem_listingLines (h : line ∈ p.listingLines) : line = listingHeader ∨
    (∃ index instr, line = p.listingRow index instr) ∨
      (∃ e : Imbalance, line = "; " ++ e.message) ∨ line = "" := by
  rw [listingLines, List.mem_append, List.mem_singleton, List.mem_append, List.mem_cons] at h
  obtain ((rfl | hrow) | htrailer) | rfl := h
  · exact Or.inl rfl
  · exact Or.inr (Or.inl (mem_listingRows hrow))
  · exact Or.inr (Or.inr (Or.inl (mem_listingTrailer htrailer)))
  · exact Or.inr (Or.inr (Or.inr rfl))

lemma lineEnd_not_mem (h : line ∈ p.listingLines) : '\n' ∉ line.toList := by
  obtain rfl | ⟨index, instr, rfl⟩ | ⟨e, rfl⟩ | rfl := mem_listingLines h
  · decide
  · have haddress := separates_lineEnd.not_mem_address
    have hname := separates_lineEnd.not_mem_name instr
    rw [toList_listingRow]
    cases p.partner? index <;> simp [haddress, hname]
  · simp [separates_lineEnd.not_mem_message e]
  · decide

/-- A listing falls apart into its lines, with nothing behind the last line end. -/
theorem lines_listing (p : Program) :
    split '\n' p.listing.toList = p.listingLines.map String.toList ++ [[]] := by
  rw [listing, toList_foldl_lines]
  refine split_flatMap fun piece hpiece => ?_
  obtain ⟨line, hline, rfl⟩ := List.mem_map.mp hpiece
  exact lineEnd_not_mem hline

lemma pieces_listing (p : Program) : split '\n' p.listing.toList = listingHeader.toList ::
    p.listingRows.map String.toList ++ p.listingTrailer.map String.toList ++ [[], []] := by
  rw [lines_listing, listingLines]
  simp

/-! ### Rows -/

/-- A row falls apart into address, name and, if there is a partner, its address. -/
theorem fields_listingRow (p : Program) (index : Nat) (instr : Instr) :
    split '\t' (p.listingRow index instr).toList =
      (Hex.address index).toList :: instr.name.toList ::
        ((p.partner? index).map fun target => (Hex.address target).toList).toList := by
  rw [toList_listingRow, split_append_cons (separates_tab.not_mem_address index)]
  have hname := separates_tab.not_mem_name instr
  cases p.partner? index with
  | none =>
    rw [Option.map_none, Option.getD_none, List.append_nil, split_of_not_mem hname]
    rfl
  | some target =>
    rw [Option.map_some, Option.getD_some, split_append_cons hname,
      split_of_not_mem (separates_tab.not_mem_address target)]
    rfl

lemma ofLine?_listingRow (p : Program) (index : Nat) (instr : Instr) :
    Row.ofLine? (p.listingRow index instr).toList = some (p.row index instr) := by
  have haddress (n : Nat) := (Hex.spells_address n).read
  rw [Row.ofLine?, fields_listingRow, row]
  cases p.partner? index <;> simp [haddress]

lemma ofLine?_of_tab_not_mem {line : List Char} (h : '\t' ∉ line) : Row.ofLine? line = none := by
  rw [Row.ofLine?, split_of_not_mem h]

lemma ofLine?_listingHeader : Row.ofLine? listingHeader.toList = none := rfl

lemma filterMap_listingRows (p : Program) :
    (p.listingRows.map String.toList).filterMap Row.ofLine? = p.toList.mapIdx p.row := by
  have hrows (is : List Instr) : ((is.mapIdx p.listingRow).map String.toList).filterMap
      Row.ofLine? = is.mapIdx p.row := by
    induction is using List.reverseRecOn with
    | nil => rfl
    | append_singleton is i ih =>
      rw [List.mapIdx_concat, List.map_append, List.filterMap_append, ih, List.map_singleton,
        List.filterMap_cons_some (ofLine?_listingRow p is.length i), List.mapIdx_concat]
      rfl
  exact hrows p.toList

lemma filterMap_listingTrailer (p : Program) :
    (p.listingTrailer.map String.toList).filterMap Row.ofLine? = [] := by
  refine List.filterMap_eq_nil_iff.mpr fun piece hpiece => ?_
  obtain ⟨line, hline, rfl⟩ := List.mem_map.mp hpiece
  obtain ⟨e, rfl⟩ := mem_listingTrailer hline
  apply ofLine?_of_tab_not_mem
  simp [separates_tab.not_mem_message e]

/-- The rows of a program are read from its listing, and nothing else is. -/
theorem rows_listing (p : Program) : Row.ofListing p.listing = p.toList.mapIdx p.row := by
  have hempty : [[], []].filterMap Row.ofLine? = [] := rfl
  rw [Row.ofListing, pieces_listing, List.cons_append, List.cons_append,
    List.filterMap_cons_none ofLine?_listingHeader, List.filterMap_append, List.filterMap_append,
    filterMap_listingRows, filterMap_listingTrailer, hempty, List.append_nil, List.append_nil]

theorem ofListing_listing (p : Program) : ofListing p.listing = p := by
  apply ext
  have hinstrs : (p.toList.mapIdx p.row).map Row.instr = p.toList := by
    refine List.ext_getElem? fun index => ?_
    rw [List.getElem?_map, List.getElem?_mapIdx]
    cases p.toList[index]? <;> rfl
  rw [ofListing, rows_listing, hinstrs, instrs_ofList]
  rfl

/-! ### Operands -/

lemma partner?_eq_some_iff : p.partner? index = some target ↔ p.jumpTarget index = .ok target := by
  rw [partner?, jumpTarget]
  cases p.pairing with
  | error e => simp
  | ok partners =>
    simp only
    cases partners.partner? index <;> simp

lemma bracketsMatch_of_partner? (h : p.partner? index = some target) : p.bracketsMatch = true := by
  rw [bracketsMatch, imbalance?]
  rw [partner?] at h
  cases hpairing : p.pairing with
  | ok partners => rfl
  | error e =>
    rw [hpairing] at h
    cases h

lemma isSome_partner?_iff (hi : p.instrs[index]? = some instr) :
    (p.partner? index).isSome ↔
      p.bracketsMatch = true ∧ (instr = .loopBegin ∨ instr = .loopEnd) := by
  have hiff (hp : p.bracketsMatch = true) :
      (p.partner? index).isSome ↔ instr = .loopBegin ∨ instr = .loopEnd := by
    simp only [Option.isSome_iff_exists, partner?_eq_some_iff, (onePartner hp).jumpTarget_iff, hi,
      Option.some.injEq]
  constructor
  · intro h
    obtain ⟨target, htarget⟩ := Option.isSome_iff_exists.mp h
    have hp := bracketsMatch_of_partner? htarget
    exact ⟨hp, (hiff hp).mp h⟩
  · rintro ⟨hp, hbracket⟩
    exact (hiff hp).mpr hbracket

/-- The table and the searches agree, so that an operand is the other end of the loop. -/
lemma loopEndOf_of_partner? (h : p.partner? index = some target)
    (hi : p.instrs[index]? = some .loopBegin) : p.loopEndOf index = .ok target := by
  have hp := bracketsMatch_of_partner? h
  exact loopEndOf_eq_ok hp ((jumpTarget_of_loopBegin hp hi).mp (partner?_eq_some_iff.mp h))

lemma loopBeginOf_of_partner? (h : p.partner? index = some target)
    (hi : p.instrs[index]? = some .loopEnd) : p.loopBeginOf index = .ok target := by
  have hp := bracketsMatch_of_partner? h
  exact loopBeginOf_eq_ok hp ((jumpTarget_of_loopEnd hp hi).mp (partner?_eq_some_iff.mp h))

/-! ### What a listing shows -/

lemma shownBy_listingRow (hi : p.instrs[index]? = some instr) :
    p.ShownBy index instr (Hex.address index).toList instr.name.toList
      ((p.partner? index).map fun target => (Hex.address target).toList) where
  address := Hex.spells_address index
  name := by rw [String.ofList_toList, Instr.ofName?_name]
  operand_iff := by rw [Option.isSome_map, isSome_partner?_iff hi]
  operand := by
    intro field hfield
    obtain ⟨target, htarget, rfl⟩ := Option.map_eq_some_iff.mp hfield
    refine ⟨target, Hex.spells_address target, ?_, ?_⟩
    · rintro rfl
      exact loopEndOf_of_partner? htarget hi
    · rintro rfl
      exact loopBeginOf_of_partner? htarget hi

lemma length_listingRows (p : Program) : p.listingRows.length = p.size := by
  rw [listingRows, List.length_mapIdx]
  rfl

lemma getElem?_listingRows (hi : p.instrs[index]? = some instr) :
    p.listingRows[index]? = some (p.listingRow index instr) := by
  rw [listingRows, List.getElem?_mapIdx, Array.getElem?_toList, hi]
  rfl

lemma length_listingTrailer (p : Program) :
    p.listingTrailer.length = if p.bracketsMatch then 0 else 1 := by
  rw [listingTrailer, bracketsMatch]
  cases p.imbalance? <;> rfl

/-- A listing falls apart into its first line, one row for each instruction, a report if the
brackets do not match, and two empty pieces. The row of an instruction falls apart into the fields
that show it. So the program is read from its listing, whether its brackets match or not, and no
other program has the same one. -/
theorem listing_lossless (p : Program) :
    (∃ rows trailer : List (List Char),
      split '\n' p.listing.toList = listingHeader.toList :: rows ++ trailer ++ [[], []] ∧
      rows.length = p.size ∧
      trailer = (p.imbalance?.map fun e => ("; " ++ e.message).toList).toList) ∧
    (split '\n' p.listing.toList).length = p.size + (if p.bracketsMatch then 3 else 4) ∧
    (∀ index instr, p.instrs[index]? = some instr → ∃ row address name operand,
      (split '\n' p.listing.toList)[index + 1]? = some row ∧
      split '\t' row = address :: name :: operand.toList ∧
      p.ShownBy index instr address name operand) ∧
    ofListing p.listing = p ∧
    ∀ q : Program, q.listing = p.listing → q = p := by
  have hpieces := p.pieces_listing
  refine ⟨⟨_, _, hpieces, ?_, ?_⟩, ?_, ?_, ofListing_listing p, ?_⟩
  · rw [List.length_map, length_listingRows]
  · rw [listingTrailer]
    cases p.imbalance? <;> rfl
  · simp only [hpieces, List.cons_append, List.length_cons, List.length_append, List.length_map,
      length_listingRows, length_listingTrailer, List.length_nil]
    split <;> omega
  · intro index instr hi
    have hrow : (p.listingRows.map String.toList)[index]? =
        some (p.listingRow index instr).toList := by
      rw [List.getElem?_map, getElem?_listingRows hi, Option.map_some]
    obtain ⟨hlt, -⟩ := List.getElem?_eq_some_iff.mp hrow
    refine ⟨_, _, _, _, ?_, fields_listingRow p index instr, shownBy_listingRow hi⟩
    rw [hpieces, List.append_assoc, List.cons_append, List.getElem?_cons_succ,
      List.getElem?_append_left hlt, hrow]
  · intro q h
    rw [← ofListing_listing q, h, ofListing_listing]

end Program

end TapeMachine
