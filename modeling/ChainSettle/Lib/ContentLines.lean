import ChainSettle.Lib.Text

/-!
The content lines of a calendar. Each line of the file ends with a carriage return and a line
feed. A long content line is folded: it goes on in the next line of the file, after a space. In
the value of a text property a backslash is put before some characters, and `\n` stands for a
line break.
-/

namespace Lib.ContentLines

abbrev Line := List Char

section Reader

/-- What is between the line ends. -/
def splitLines : List Char → List Line
  | [] => [[]]
  | '\r' :: '\n' :: rest => [] :: splitLines rest
  | c :: rest =>
      match splitLines rest with
      | line :: lines => (c :: line) :: lines
      | [] => [[c]]

/-- The content line that has begun with `current`, and those after it. -/
def unfoldFrom (current : Line) : List Line → List Line
  | [] => [current]
  | (' ' :: line) :: lines => unfoldFrom (current ++ line) lines
  | line :: lines => current :: unfoldFrom line lines

def unfold : List Line → List Line
  | [] => []
  | line :: lines => unfoldFrom line lines

/-- The content lines of a file, if its last line is ended. -/
def contentLines (text : List Char) : Option (List Line) :=
  let lines := splitLines text
  if lines.getLast? = some [] then some (unfold lines.dropLast) else none

/-- Without the line ends that a space follows, nor these spaces. -/
def removeFolds : List Char → List Char
  | '\r' :: '\n' :: ' ' :: rest => removeFolds rest
  | c :: rest => c :: removeFolds rest
  | [] => []

/-- The value of a line, if this is the name before it. -/
def valueOf : (name line : List Char) → Option (List Char)
  | [], ':' :: value => some value
  | c :: name, d :: line => if c = d then valueOf name line else none
  | _, _ => none

/-- The text that a value stands for. -/
def unescape : List Char → List Char
  | '\\' :: 'n' :: rest | '\\' :: 'N' :: rest => '\n' :: unescape rest
  | '\\' :: c :: rest => c :: unescape rest
  | c :: rest => c :: unescape rest
  | [] => []

/-- A line feed for each line break. -/
def lineFeeds : List Char → List Char
  | '\r' :: '\n' :: rest | '\r' :: rest => '\n' :: lineFeeds rest
  | c :: rest => c :: lineFeeds rest
  | [] => []

end Reader

section Folding

theorem splitLines_cons {c : Char} (hc : c ≠ '\r') {rest : List Char} {line : Line}
    {lines : List Line} (h : splitLines rest = line :: lines) :
    splitLines (c :: rest) = (c :: line) :: lines := by
  rw [splitLines.eq_def]
  split
  · contradiction
  · rename_i heq
    exact absurd (List.cons.inj heq).1 hc
  · rename_i heq
    obtain ⟨rfl, rfl⟩ := List.cons.inj heq
    rw [h]

theorem splitLines_append {line : Line} (h : '\r' ∉ line) (rest : List Char) :
    splitLines (line ++ '\r' :: '\n' :: rest) = line :: splitLines rest := by
  induction line with
  | nil => rfl
  | cons c line ih =>
      rw [List.mem_cons, not_or] at h
      exact splitLines_cons (Ne.symm h.1) (ih h.2)

theorem splitLines_of_not_mem {line : Line} (h : '\r' ∉ line) : splitLines line = [line] := by
  induction line with
  | nil => rfl
  | cons c line ih =>
      rw [List.mem_cons, not_or] at h
      exact splitLines_cons (Ne.symm h.1) (ih h.2)

theorem splitLines_flatMap {lines : List Line} (h : ∀ line ∈ lines, '\r' ∉ line) :
    splitLines (lines.flatMap (· ++ ['\r', '\n'])) = lines ++ [[]] := by
  induction lines with
  | nil => rfl
  | cons line lines ih =>
      rw [List.forall_mem_cons] at h
      rw [List.flatMap_cons, List.append_assoc, List.cons_append, List.singleton_append,
        splitLines_append h.1, ih h.2]
      rfl

/-- Where a file ends its lines, its content lines are those lines unfolded. -/
theorem contentLines_flatMap {lines : List Line} (h : ∀ line ∈ lines, '\r' ∉ line) :
    contentLines (lines.flatMap (· ++ ['\r', '\n'])) = some (unfold lines) := by
  unfold contentLines
  simp only [splitLines_flatMap h, List.getLast?_concat, List.dropLast_concat, if_true]

theorem removeFolds_append {line : Line} (h : '\r' ∉ line) (rest : List Char) :
    removeFolds (line ++ rest) = line ++ removeFolds rest := by
  induction line with
  | nil => rfl
  | cons c line ih =>
      rw [List.mem_cons, not_or] at h
      rw [List.cons_append, removeFolds, ih h.2, List.cons_append]
      exact fun _ heq _ => h.1 heq.symm

theorem splitLines_continued {line : Line} (h : '\r' ∉ line) {parts : List Line}
    (hparts : ∀ part ∈ parts, '\r' ∉ part) :
    splitLines (line ++ parts.flatMap (['\r', '\n', ' '] ++ ·)) =
      line :: parts.map (' ' :: ·) := by
  induction parts generalizing line with
  | nil => rw [List.flatMap_nil, List.append_nil, splitLines_of_not_mem h, List.map_nil]
  | cons part parts ih =>
      rw [List.forall_mem_cons] at hparts
      have hspace : '\r' ∉ ' ' :: part := by
        rw [List.mem_cons, not_or]
        exact ⟨by decide, hparts.1⟩
      rw [List.flatMap_cons, List.map_cons, ← ih hspace hparts.2]
      exact splitLines_append h _

theorem removeFolds_continued {parts : List Line} (hparts : ∀ part ∈ parts, '\r' ∉ part) :
    removeFolds (parts.flatMap (['\r', '\n', ' '] ++ ·)) = parts.flatten := by
  induction parts with
  | nil => rfl
  | cons part parts ih =>
      rw [List.forall_mem_cons] at hparts
      rw [List.flatMap_cons, List.flatten_cons, ← ih hparts.2, ← removeFolds_append hparts.1]
      rfl

/-- A content line, cut into the part that begins it and those that follow in lines of their
own. -/
structure Folded (line : Line) where
  first : Line
  rest : List Line
  flatten : first ++ rest.flatten = line
  begins : line ≠ [] → first ≠ []

namespace Folded

variable {line : Line} (folded : Folded line)

/-- The lines of the file. -/
def lines : List Line := folded.first :: folded.rest.map (' ' :: ·)

/-- The text of the file, without the last line end. -/
def text : List Char := folded.first ++ folded.rest.flatMap (['\r', '\n', ' '] ++ ·)

theorem text_append : folded.text ++ ['\r', '\n'] = folded.lines.flatMap (· ++ ['\r', '\n']) := by
  unfold text lines
  rw [List.flatMap_cons, List.append_assoc, List.append_assoc]
  congr 1
  generalize folded.rest = rest
  induction rest with
  | nil => rfl
  | cons part rest ih =>
      rw [List.flatMap_cons, List.map_cons, List.flatMap_cons, List.append_assoc, ih]
      simp

theorem return_not_mem_parts (h : '\r' ∉ line) :
    '\r' ∉ folded.first ∧ ∀ part ∈ folded.rest, '\r' ∉ part := by
  rw [← folded.flatten, List.mem_append, not_or, List.mem_flatten] at h
  exact ⟨h.1, fun part hpart hmem => h.2 ⟨part, hpart, hmem⟩⟩

/-- The text is in the lines that it was put together of. -/
theorem splitLines_text (h : '\r' ∉ line) : splitLines folded.text = folded.lines := by
  obtain ⟨hfirst, hrest⟩ := folded.return_not_mem_parts h
  exact splitLines_continued hfirst hrest

theorem removeFolds_text (h : '\r' ∉ line) : removeFolds folded.text = line := by
  obtain ⟨hfirst, hrest⟩ := folded.return_not_mem_parts h
  rw [text, removeFolds_append hfirst, removeFolds_continued hrest, folded.flatten]

theorem return_not_mem (h : '\r' ∉ line) : ∀ part ∈ folded.lines, '\r' ∉ part := by
  obtain ⟨hfirst, hrest⟩ := folded.return_not_mem_parts h
  unfold lines
  rw [List.forall_mem_cons, List.forall_mem_map]
  refine ⟨hfirst, fun part hpart hmem => ?_⟩
  rcases List.mem_cons.mp hmem with hspace | hmem
  · exact absurd hspace (by decide)
  · exact hrest part hpart hmem

end Folded

theorem unfoldFrom_map (current : Line) (parts rest : List Line) :
    unfoldFrom current (parts.map (' ' :: ·) ++ rest) =
      unfoldFrom (current ++ parts.flatten) rest := by
  induction parts generalizing current with
  | nil => simp
  | cons part parts ih =>
      rw [List.map_cons, List.cons_append, unfoldFrom, ih, List.flatten_cons, List.append_assoc]

theorem unfoldFrom_of_ne_space {line : Line} (h : ∀ c ∈ line.head?, c ≠ ' ') (current : Line)
    (lines : List Line) : unfoldFrom current (line :: lines) = current :: unfoldFrom line lines := by
  rw [unfoldFrom.eq_def]
  split
  · contradiction
  · rename_i heq
    obtain ⟨rfl, -⟩ := List.cons.inj heq
    exact absurd rfl (h ' ' rfl)
  · rename_i heq
    obtain ⟨rfl, rfl⟩ := List.cons.inj heq
    rfl

/-- A content line that does not start with a space. -/
def Starts (line : Line) : Prop := ∃ c rest, line = c :: rest ∧ c ≠ ' '

theorem starts_cons {c : Char} {rest : Line} : Starts (c :: rest) ↔ c ≠ ' ' :=
  ⟨by rintro ⟨_, _, ⟨⟩, hc⟩; exact hc, fun hc => ⟨c, rest, rfl, hc⟩⟩

theorem Starts.append {line : Line} (h : Starts line) (rest : Line) : Starts (line ++ rest) := by
  obtain ⟨c, more, rfl, hc⟩ := h
  exact ⟨c, more ++ rest, rfl, hc⟩

instance : (line : Line) → Decidable (Starts line)
  | [] => isFalse nofun
  | _ :: _ => decidable_of_iff _ starts_cons.symm

theorem Folded.first_starts {line : Line} (folded : Folded line) (h : Starts line) :
    ∀ c ∈ folded.first.head?, c ≠ ' ' := by
  obtain ⟨c, rest, hcons, hc⟩ := h
  have hbegins := folded.begins (hcons ▸ List.cons_ne_nil _ _)
  have hflatten := folded.flatten
  obtain ⟨d, first, hsplit⟩ := List.exists_cons_of_ne_nil hbegins
  rw [hsplit, List.cons_append] at hflatten
  rw [hsplit]
  rintro e ⟨⟩
  rw [(List.cons.inj (hflatten.trans hcons)).1]
  exact hc

variable (fold : (line : Line) → Folded line)

/-- The parts in front belong to the line that has begun, and the others are put together. -/
theorem unfoldFrom_flatMap {lines : List Line} (h : ∀ line ∈ lines, Starts line) (current : Line)
    (parts : List Line) :
    unfoldFrom current (parts.map (' ' :: ·) ++ lines.flatMap fun line => (fold line).lines) =
      (current ++ parts.flatten) :: lines := by
  induction lines generalizing current parts with
  | nil =>
      rw [List.flatMap_nil, unfoldFrom_map]
      rfl
  | cons line lines ih =>
      rw [List.forall_mem_cons] at h
      rw [unfoldFrom_map, List.flatMap_cons, Folded.lines, List.cons_append,
        unfoldFrom_of_ne_space ((fold line).first_starts h.1), ih h.2, (fold line).flatten]

theorem unfold_flatMap {lines : List Line} (h : ∀ line ∈ lines, Starts line) :
    unfold (lines.flatMap fun line => (fold line).lines) = lines := by
  cases lines with
  | nil => rfl
  | cons line lines =>
      have hrest := fun other hmem => h other (.tail line hmem)
      rw [List.flatMap_cons, Folded.lines, List.cons_append, unfold,
        unfoldFrom_flatMap fold hrest, (fold line).flatten]

/-- Content lines without carriage returns that do not start with a space are read back, however
they are folded. -/
theorem contentLines_folded {lines : List Line} (hreturn : ∀ line ∈ lines, '\r' ∉ line)
    (h : ∀ line ∈ lines, Starts line) :
    contentLines (lines.flatMap fun line => (fold line).text ++ ['\r', '\n']) = some lines := by
  have htext : (lines.flatMap fun line => (fold line).text ++ ['\r', '\n']) =
      (lines.flatMap fun line => (fold line).lines).flatMap (· ++ ['\r', '\n']) := by
    rw [List.flatMap_assoc]
    exact List.flatMap_congr fun line _ => (fold line).text_append
  have hlines : ∀ part ∈ lines.flatMap fun line => (fold line).lines, '\r' ∉ part := by
    intro part hmem
    obtain ⟨line, hline, hpart⟩ := List.mem_flatMap.mp hmem
    exact (fold line).return_not_mem (hreturn line hline) part hpart
  rw [htext, contentLines_flatMap hlines, unfold_flatMap fold h]

end Folding

end Lib.ContentLines
