/-!
# Pieces of a text

A text is split at every occurrence of a character, so that pieces without the character are read
back. Blanks at the ends of a text can be trimmed, and a text can be cut at positions that count the
bytes of its UTF-8 form, though not within a character.
-/

namespace TapeMachine.Text

/-- The pieces between the occurrences of a character. -/
def split (separator : Char) : List Char → List (List Char)
  | [] => [[]]
  | c :: cs =>
    if c = separator then [] :: split separator cs
    else
      match split separator cs with
      | piece :: pieces => (c :: piece) :: pieces
      | [] => [[c]]

theorem split_of_not_mem {separator : Char} {cs : List Char} (h : separator ∉ cs) :
    split separator cs = [cs] := by
  induction cs with
  | nil => rfl
  | cons c cs ih =>
    rw [List.mem_cons, not_or] at h
    rw [split, if_neg (Ne.symm h.1), ih h.2]

/-- The first piece ends at the first separator. -/
theorem split_append_cons {separator : Char} {piece : List Char} (h : separator ∉ piece)
    (rest : List Char) :
    split separator (piece ++ separator :: rest) = piece :: split separator rest := by
  induction piece with
  | nil => rw [List.nil_append, split, if_pos rfl]
  | cons c cs ih =>
    rw [List.mem_cons, not_or] at h
    rw [List.cons_append, split, if_neg (Ne.symm h.1), ih h.2]

/-- Pieces with a separator behind each are read back, and then what is behind the last one is
split. -/
theorem split_flatMap_append {separator : Char} {pieces : List (List Char)}
    (h : ∀ piece ∈ pieces, separator ∉ piece) (rest : List Char) :
    split separator (pieces.flatMap (· ++ [separator]) ++ rest) =
      pieces ++ split separator rest := by
  induction pieces with
  | nil => rfl
  | cons piece pieces ih =>
    rw [List.flatMap_cons, List.append_assoc, List.append_assoc, List.singleton_append,
      split_append_cons (h piece List.mem_cons_self),
      ih fun other hother => h other (List.mem_cons_of_mem _ hother)]
    rfl

theorem split_flatMap {separator : Char} {pieces : List (List Char)}
    (h : ∀ piece ∈ pieces, separator ∉ piece) :
    split separator (pieces.flatMap (· ++ [separator])) = pieces ++ [[]] := by
  have hsplit := split_flatMap_append h []
  rwa [List.append_nil] at hsplit

/-! ### Blanks -/

/-- Whether a character has the Unicode property White_Space. -/
def isBlank (c : Char) : Bool :=
  let n := c.toNat
  (0x09 ≤ n && n ≤ 0x0D) || n == 0x20 || n == 0x85 || n == 0xA0 || n == 0x1680 ||
    (0x2000 ≤ n && n ≤ 0x200A) || n == 0x2028 || n == 0x2029 || n == 0x202F || n == 0x205F ||
    n == 0x3000

/-- A text without the blanks at its ends. -/
def trim (text : List Char) : List Char :=
  ((text.dropWhile isBlank).reverse.dropWhile isBlank).reverse

theorem trim_of_not_blank {text : List Char} (h : ∀ c ∈ text, isBlank c = false) :
    trim text = text := by
  have hkeep (text : List Char) (h : ∀ c ∈ text, isBlank c = false) :
      text.dropWhile isBlank = text := by
    cases text with
    | nil => rfl
    | cons c rest => exact List.dropWhile_cons_of_neg (by simp [h c List.mem_cons_self])
  rw [trim, hkeep text h, hkeep _ fun c hc => h c (List.mem_reverse.mp hc), List.reverse_reverse]

/-! ### Positions in bytes -/

/-- The beginning of a text that has so many bytes. -/
def takeBytes? : Nat → List Char → Option (List Char)
  | 0, _ => some []
  | _ + 1, [] => none
  | n + 1, c :: rest =>
    if c.utf8Size ≤ n + 1 then (takeBytes? (n + 1 - c.utf8Size) rest).map (c :: ·) else none

/-- What is behind so many bytes of a text. -/
def dropBytes? : Nat → List Char → Option (List Char)
  | 0, text => some text
  | _ + 1, [] => none
  | n + 1, c :: rest =>
    if c.utf8Size ≤ n + 1 then dropBytes? (n + 1 - c.utf8Size) rest else none

/-- The piece of a text from one position up to another. -/
def cut? (first last : Nat) (text : List Char) : Option (List Char) :=
  (takeBytes? last text).bind (dropBytes? first)

/-- Behind as many bytes as a text has is what follows it. -/
theorem dropBytes?_append {n : Nat} {before : List Char} (h : takeBytes? n before = some before)
    (behind : List Char) : dropBytes? n (before ++ behind) = some behind := by
  fun_induction takeBytes? n before with
  | case1 before =>
    rw [← Option.some.inj h, List.nil_append, dropBytes?]
  | case2 => simp at h
  | case3 n c rest hc ih =>
    obtain ⟨front, hfront, heq⟩ := Option.map_eq_some_iff.1 h
    rw [List.cons.inj heq |>.2] at hfront
    rw [List.cons_append, dropBytes?, if_pos hc, ih hfront]
  | case4 => simp at h

end TapeMachine.Text
