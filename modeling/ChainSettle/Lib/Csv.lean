import Mathlib.Data.List.Basic

/-!
Comma separated values. A line ends with a carriage return, a line feed or both, and the last
one may end with the text. A field is enclosed in quotes, where each quote in it is doubled, or
goes up to the next comma or line end. `read` is one pass over the text; it finds nothing in a
text whose quotes do not match.

`record` writes the fields of a line and quotes those that `needs` says. `read_lines_iff`: as
long as fields with commas, quotes and line feeds are quoted, a table is read back if and only
if those with carriage returns are quoted too.
-/

namespace Lib.Csv

abbrev Table := List (List (List Char))

section Reader

/-- Where the reader is: at the start of a line or of another field, in a field, in a quoted
field, behind a quote in one, or behind a carriage return. -/
inductive Mode where
  | line | field | plain | quoted | closed | return
deriving DecidableEq

/-- What the reader makes of a character: part of the field, nothing, the end of the field or
the end of the line. -/
inductive Step where
  | char (next : Mode)
  | skip (next : Mode)
  | comma
  | newline (next : Mode)
  | malformed

def plainStep (c : Char) : Step :=
  if c = ',' then .comma
  else if c = '\n' then .newline .line
  else if c = '\r' then .newline .return
  else if c = '"' then .malformed
  else .char .plain

def startStep (c : Char) : Step :=
  if c = '"' then .skip .quoted else plainStep c

def step (c : Char) : Mode → Step
  | .line | .field => startStep c
  | .plain => plainStep c
  | .quoted => if c = '"' then .skip .closed else .char .quoted
  | .closed =>
      if c = '"' then .char .quoted
      else if c ∈ [',', '\n', '\r'] then plainStep c
      else .malformed
  | .return => if c = '\n' then .skip .line else startStep c

/-- More text at the front of the first field. -/
def pushText (text : List Char) : Table → Table
  | (field :: fields) :: records => ((text ++ field) :: fields) :: records
  | records => records

/-- An empty field in front of the others of the first record. -/
def pushField : Table → Table
  | fields :: records => ([] :: fields) :: records
  | [] => [[[]]]

/-- The records of a text from its first line on, of which the first begins where the reader is. -/
def read : Mode → List Char → Option Table
  | .line, [] | .return, [] => some []
  | .quoted, [] => none
  | .field, [] | .plain, [] | .closed, [] => some [[[]]]
  | mode, c :: rest =>
      match step c mode with
      | .char next => (read next rest).map (pushText [c])
      | .skip next => read next rest
      | .comma => (read .field rest).map pushField
      | .newline next => (read next rest).map ([[]] :: ·)
      | .malformed => none

theorem read_cons (mode : Mode) (c : Char) (rest : List Char) :
    read mode (c :: rest) =
      match step c mode with
      | .char next => (read next rest).map (pushText [c])
      | .skip next => read next rest
      | .comma => (read .field rest).map pushField
      | .newline next => (read next rest).map ([[]] :: ·)
      | .malformed => none := by
  cases mode <;> rfl

theorem pushText_nil : pushText [] = id := by
  funext records
  unfold pushText
  split <;> rfl

theorem pushText_append (a b : List Char) (records : Table) :
    pushText (a ++ b) records = pushText a (pushText b records) := by
  cases records with
  | nil => rfl
  | cons first records =>
      cases first with
      | nil => rfl
      | cons field fields => simp only [pushText, List.append_assoc]

end Reader

section Writer

/-- Commas, quotes and line ends. -/
def special : List Char := [',', '"', '\n', '\r']

def doubled (text : List Char) : List Char :=
  text.flatMap fun c => if c = '"' then ['"', '"'] else [c]

variable (needs : List Char → Bool)

def field (text : List Char) : List Char :=
  if needs text then '"' :: doubled text ++ ['"'] else text

def record (fields : List (List Char)) : List Char :=
  [','].intercalate (fields.map (field needs))

/-- Lines that all end with a line feed. -/
def lines (records : Table) : List Char :=
  records.flatMap fun fields => record needs fields ++ ['\n']

theorem lines_append (a b : Table) : lines needs (a ++ b) = lines needs a ++ lines needs b :=
  List.flatMap_append

theorem lines_cons (fields : List (List Char)) (records : Table) :
    lines needs (fields :: records) = record needs fields ++ '\n' :: lines needs records := by
  rw [lines, List.flatMap_cons, List.append_assoc, List.singleton_append]
  rfl

end Writer

section ReadBack

/-- Behind a field. -/
def Separated (rest : List Char) : Prop :=
  ∀ c ∈ rest.head?, c ∈ [',', '\n', '\r']

theorem read_plain {text : List Char} (h : ∀ c ∈ text, c ∉ special) (rest : List Char) :
    read .plain (text ++ rest) = (read .plain rest).map (pushText text) := by
  induction text with
  | nil => rw [pushText_nil, Option.map_id, id, List.nil_append]
  | cons c text ih =>
      have hc := h c (.head _)
      simp only [special, List.mem_cons, List.not_mem_nil, or_false, not_or] at hc
      have hstep : step c .plain = .char .plain := by
        simp only [step, plainStep, if_neg hc.1, if_neg hc.2.1, if_neg hc.2.2.1, if_neg hc.2.2.2]
      rw [List.cons_append, read_cons, hstep]
      simp only [ih fun d hd => h d (.tail _ hd), Option.map_map]
      congr 1
      funext records
      exact (pushText_append [c] text records).symm

theorem read_quoted (text rest : List Char) :
    read .quoted (doubled text ++ '"' :: rest) = (read .closed rest).map (pushText text) := by
  induction text with
  | nil =>
      rw [doubled, List.flatMap_nil, List.nil_append, read_cons, pushText_nil, Option.map_id]
      rfl
  | cons c text ih =>
      have hpush : (read .quoted (doubled text ++ '"' :: rest)).map (pushText [c]) =
          (read .closed rest).map (pushText (c :: text)) := by
        rw [ih, Option.map_map]
        congr 1
        funext records
        exact (pushText_append [c] text records).symm
      rw [← hpush, doubled, List.flatMap_cons]
      by_cases hquote : c = '"'
      · subst hquote
        rw [if_pos rfl]
        simp only [List.cons_append, List.nil_append]
        rw [read_cons, read_cons]
        rfl
      · rw [if_neg hquote, List.cons_append, List.nil_append, List.cons_append, read_cons]
        simp only [step, if_neg hquote]
        rfl

/-- A field that was quoted ends like one that was not. -/
theorem read_closed {rest : List Char} (h : Separated rest) : read .closed rest = read .plain rest := by
  cases rest with
  | nil => rfl
  | cons c rest =>
      have hc : c ∈ [',', '\n', '\r'] := h c rfl
      have hquote : c ≠ '"' := by
        rintro rfl
        exact absurd hc (by decide)
      rw [read_cons, read_cons]
      simp only [step, if_neg hquote, if_pos hc]

theorem read_field_of_separated {rest : List Char} (h : Separated rest) :
    read .field rest = read .plain rest := by
  cases rest with
  | nil => rfl
  | cons c rest =>
      have hc : c ∈ [',', '\n', '\r'] := h c rfl
      have hquote : c ≠ '"' := by
        rintro rfl
        exact absurd hc (by decide)
      rw [read_cons, read_cons]
      simp only [step, startStep, if_neg hquote]

variable {needs : List Char → Bool}

/-- A field is read back where it is quoted or has no character that needs it. -/
theorem read_field {text : List Char} (h : needs text = false → ∀ c ∈ text, c ∉ special)
    {rest : List Char} (hrest : Separated rest) :
    read .field (field needs text ++ rest) = (read .plain rest).map (pushText text) := by
  unfold field
  cases hneeds : needs text with
  | true =>
      rw [if_pos rfl, List.cons_append, List.cons_append, List.append_assoc,
        List.singleton_append, read_cons]
      simp only [step, startStep, if_pos]
      rw [read_quoted, read_closed hrest]
  | false =>
      rw [if_neg Bool.false_ne_true, ← read_plain (h hneeds)]
      cases text with
      | nil => exact read_field_of_separated hrest
      | cons c text =>
          have hquote : c ≠ '"' := by
            rintro rfl
            exact h hneeds _ (.head _) (by decide)
          rw [List.cons_append, read_cons, read_cons]
          simp only [step, startStep, if_neg hquote]

/-- The rest is behind a record: the reader finds the end of a field and of its record. -/
structure Behind (rest : List Char) (found : Option Table) : Prop where
  separated : Separated rest
  read : read .plain rest = found.map ([[]] :: ·)

theorem behind_nil : Behind [] (some []) where
  separated := nofun
  read := rfl

theorem behind_newline (rest : List Char) : Behind ('\n' :: rest) (read .line rest) where
  separated := by
    rintro c ⟨⟩
    decide
  read := rfl

theorem read_record {fields : List (List Char)} (hne : fields ≠ [])
    (h : ∀ text ∈ fields, needs text = false → ∀ c ∈ text, c ∉ special) {rest : List Char}
    {found : Option Table} (hrest : Behind rest found) :
    read .field (record needs fields ++ rest) = found.map (fields :: ·) := by
  induction fields with
  | nil => exact absurd rfl hne
  | cons text fields ih =>
      have htext := h text (.head _)
      cases fields with
      | nil =>
          rw [record, List.map_singleton, List.intercalate_singleton,
            read_field htext hrest.separated, hrest.read, Option.map_map]
          congr 1
          funext records
          simp [pushText]
      | cons next fields =>
          have hnext := ih (List.cons_ne_nil _ _) fun t ht => h t (.tail _ ht)
          have hcomma (cs : List Char) : Separated (',' :: cs) := by
            rintro c ⟨⟩
            decide
          rw [record] at hnext ⊢
          rw [List.map_cons, List.intercalate_cons_of_ne_nil (by simp), List.append_assoc,
            List.append_assoc, List.singleton_append, read_field htext (hcomma _), read_cons]
          simp only [step, plainStep, if_pos, hnext, Option.map_map]
          congr 1
          funext records
          simp [pushText, pushField]

theorem read_line_of_ne_nil {text : List Char} (h : text ≠ []) : read .line text = read .field text := by
  cases text with
  | nil => exact absurd rfl h
  | cons c rest => rw [read_cons, read_cons]; rfl

theorem read_lines {records : Table} (hne : ∀ fields ∈ records, fields ≠ [])
    (h : ∀ fields ∈ records, ∀ text ∈ fields, needs text = false → ∀ c ∈ text, c ∉ special)
    (rest : List Char) :
    read .line (lines needs records ++ rest) = (read .line rest).map (records ++ ·) := by
  induction records with
  | nil => simp [lines]
  | cons fields records ih =>
      have hrest := ih (fun f hf => hne f (.tail _ hf)) fun f hf => h f (.tail _ hf)
      rw [lines_cons, List.append_assoc, List.cons_append, read_line_of_ne_nil (by simp),
        read_record (hne fields (.head _)) (h fields (.head _)) (behind_newline _), hrest,
        Option.map_map]
      rfl

end ReadBack

section CarriageReturns

/-- The carriage returns in the fields of a table. -/
def returns (records : Table) : Nat := records.flatten.flatten.count '\r'

theorem returns_pushText (text field : List Char) (fields : List (List Char)) (records : Table) :
    returns (pushText text ((field :: fields) :: records)) =
      text.count '\r' + returns ((field :: fields) :: records) := by
  simp only [returns, pushText, List.flatten_cons, List.append_assoc, List.cons_append,
    List.count_append]

theorem returns_pushText_of_ne {c : Char} (hc : c ≠ '\r') (records : Table) :
    returns (pushText [c] records) = returns records := by
  cases records with
  | nil => rfl
  | cons first records =>
      cases first with
      | nil => rfl
      | cons field fields =>
          rw [returns_pushText, List.count_singleton, if_neg (by simpa using hc), Nat.zero_add]

theorem returns_pushField (records : Table) : returns (pushField records) = returns records := by
  cases records <;> rfl

/-- A quoted field is there to be read when it ends. -/
theorem read_closed_ne_nil {rest : List Char} (hrest : Separated rest) {found : Table}
    (h : read .closed rest = some found) :
    ∃ field fields records, found = (field :: fields) :: records := by
  cases rest with
  | nil =>
      cases h
      exact ⟨_, _, _, rfl⟩
  | cons c rest =>
      have hc : c ∈ [',', '\n', '\r'] := hrest c rfl
      simp only [List.mem_cons, List.not_mem_nil, or_false] at hc
      rcases hc with rfl | rfl | rfl
      · obtain ⟨records, -, rfl⟩ := Option.map_eq_some_iff.mp h
        cases records <;> exact ⟨_, _, _, rfl⟩
      · obtain ⟨records, -, rfl⟩ := Option.map_eq_some_iff.mp h
        exact ⟨_, _, _, rfl⟩
      · obtain ⟨records, -, rfl⟩ := Option.map_eq_some_iff.mp h
        exact ⟨_, _, _, rfl⟩

/-- What is read from here holds so many carriage returns more than what is read from there. -/
def Holds (count : Nat) (mode : Mode) (text : List Char) (later : Mode → Prop) (rest : List Char) :
    Prop :=
  ∀ found, read mode text = some found →
    ∃ next, later next ∧ ∃ found', read next rest = some found' ∧
      returns found = count + returns found'

theorem Holds.trans {a b : Nat} {mode : Mode} {text rest end_ : List Char} {p q : Mode → Prop}
    (h : Holds a mode text p rest) (hrest : ∀ next, p next → Holds b next rest q end_) :
    Holds (a + b) mode text q end_ := by
  intro found hread
  obtain ⟨next, hnext, found', hread', hcount⟩ := h found hread
  obtain ⟨last, hlast, found'', hread'', hcount'⟩ := hrest next hnext found' hread'
  exact ⟨last, hlast, found'', hread'', by rw [hcount, hcount', Nat.add_assoc]⟩

/-- Not in a quoted field, nor behind one. -/
def Mode.Outside (mode : Mode) : Prop := mode ≠ .quoted ∧ mode ≠ .closed

/-- Without quotes no character is a carriage return of a field. -/
theorem holds_unquoted {text : List Char} (h : '"' ∉ text) {mode : Mode} (hmode : mode.Outside)
    (rest : List Char) : Holds 0 mode (text ++ rest) Mode.Outside rest := by
  induction text generalizing mode with
  | nil => exact fun found hread => ⟨mode, hmode, found, hread, (Nat.zero_add _).symm⟩
  | cons c text ih =>
      have hc : c ≠ '"' := fun heq => h (heq ▸ .head _)
      have htext : '"' ∉ text := fun hmem => h (.tail _ hmem)
      intro found hread
      rw [List.cons_append, read_cons] at hread
      -- the reader goes on outside quotes and the field gets no carriage return
      have hplain {found : Table} (hread : (match plainStep c with
            | .char next => (read next (text ++ rest)).map (pushText [c])
            | .skip next => read next (text ++ rest)
            | .comma => (read .field (text ++ rest)).map pushField
            | .newline next => (read next (text ++ rest)).map ([[]] :: ·)
            | .malformed => none) = some found) :
          ∃ next, Mode.Outside next ∧ ∃ found', read next rest = some found' ∧
            returns found = 0 + returns found' := by
        unfold plainStep at hread
        split_ifs at hread with hcomma hline hreturn
        · obtain ⟨records, hrecords, rfl⟩ := Option.map_eq_some_iff.mp hread
          rw [returns_pushField]
          exact ih htext ⟨by decide, by decide⟩ records hrecords
        · obtain ⟨records, hrecords, rfl⟩ := Option.map_eq_some_iff.mp hread
          exact ih htext ⟨by decide, by decide⟩ records hrecords
        · obtain ⟨records, hrecords, rfl⟩ := Option.map_eq_some_iff.mp hread
          exact ih htext ⟨by decide, by decide⟩ records hrecords
        · obtain ⟨records, hrecords, rfl⟩ := Option.map_eq_some_iff.mp hread
          rw [returns_pushText_of_ne hreturn]
          exact ih htext ⟨by decide, by decide⟩ records hrecords
      cases mode with
      | line => exact hplain (by simpa [step, startStep, hc] using hread)
      | field => exact hplain (by simpa [step, startStep, hc] using hread)
      | plain => exact hplain (by simpa [step] using hread)
      | quoted => exact absurd rfl hmode.1
      | closed => exact absurd rfl hmode.2
      | «return» =>
          by_cases hline : c = '\n'
          · simp only [step, if_pos hline] at hread
            exact ih htext ⟨by decide, by decide⟩ found hread
          · exact hplain (by simpa [step, startStep, hc, hline] using hread)

theorem read_comma {mode : Mode} (hmode : mode ≠ .quoted) (rest : List Char) :
    read mode (',' :: rest) = (read .field rest).map pushField := by
  cases mode with
  | quoted => exact absurd rfl hmode
  | _ => rfl

variable {needs : List Char → Bool}

/-- A field holds its carriage returns if it is quoted. -/
theorem holds_field {text : List Char} (h : needs text = false → '"' ∉ text) {mode : Mode}
    (hmode : mode = .line ∨ mode = .field) {rest : List Char} (hrest : Separated rest) :
    Holds (([text].filter needs).flatten.count '\r') mode (field needs text ++ rest)
      (· ≠ .quoted) rest := by
  intro found hread
  unfold field at hread
  cases hneeds : needs text with
  | true =>
      have hquoted : read mode ('"' :: (doubled text ++ '"' :: rest)) =
          (read .closed rest).map (pushText text) := by
        rw [← read_quoted]
        rcases hmode with rfl | rfl <;> rfl
      rw [if_pos hneeds, List.cons_append, List.cons_append, List.append_assoc,
        List.singleton_append, hquoted] at hread
      obtain ⟨found', hread', rfl⟩ := Option.map_eq_some_iff.mp hread
      obtain ⟨first, fields, records, rfl⟩ := read_closed_ne_nil hrest hread'
      refine ⟨.closed, by decide, _, hread', ?_⟩
      rw [returns_pushText]
      simp [hneeds]
  | false =>
      rw [if_neg (by simp [hneeds])] at hread
      have houtside : mode.Outside := by rcases hmode with rfl | rfl <;> exact ⟨nofun, nofun⟩
      obtain ⟨next, hnext, found', hread', hcount⟩ :=
        holds_unquoted (h hneeds) houtside rest found hread
      refine ⟨next, hnext.1, found', hread', ?_⟩
      rw [hcount]
      simp [hneeds]

theorem holds_record {fields : List (List Char)}
    (h : ∀ text ∈ fields, needs text = false → '"' ∉ text) {mode : Mode}
    (hmode : mode = .line ∨ mode = .field) {rest : List Char} (hrest : Separated rest) :
    Holds ((fields.filter needs).flatten.count '\r') mode (record needs fields ++ rest)
      (· ≠ .quoted) rest := by
  induction fields generalizing mode with
  | nil =>
      intro found hread
      refine ⟨mode, ?_, found, hread, (Nat.zero_add _).symm⟩
      rcases hmode with rfl | rfl <;> decide
  | cons text fields ih =>
      have htext := h text (.head _)
      cases fields with
      | nil =>
          rw [record, List.map_singleton, List.intercalate_singleton]
          exact holds_field htext hmode hrest
      | cons next fields =>
          have hfield : Mode.field = .line ∨ Mode.field = .field := .inr rfl
          have hnext := ih (fun t ht => h t (.tail _ ht)) hfield
          have hcomma (cs : List Char) : Separated (',' :: cs) := by
            rintro c ⟨⟩
            decide
          have hcount : ((text :: next :: fields).filter needs).flatten.count '\r' =
              ([text].filter needs).flatten.count '\r' +
                ((next :: fields).filter needs).flatten.count '\r' := by
            rw [← List.count_append, ← List.flatten_append, ← List.filter_append,
              List.singleton_append]
          rw [hcount, record, List.map_cons, List.intercalate_cons_of_ne_nil (by simp),
            List.append_assoc, List.append_assoc, List.singleton_append]
          refine (holds_field htext hmode (hcomma _)).trans fun last hlast found hread => ?_
          rw [read_comma hlast] at hread
          obtain ⟨found', hread', rfl⟩ := Option.map_eq_some_iff.mp hread
          rw [returns_pushField]
          exact hnext found' hread'

theorem holds_lines {records : Table}
    (h : ∀ fields ∈ records, ∀ text ∈ fields, needs text = false → '"' ∉ text) (rest : List Char) :
    Holds ((records.flatten.filter needs).flatten.count '\r') .line (lines needs records ++ rest)
      (· = .line) rest := by
  induction records with
  | nil => exact fun found hread => ⟨.line, rfl, found, hread, (Nat.zero_add _).symm⟩
  | cons fields records ih =>
      have hrest := ih fun f hf => h f (.tail _ hf)
      rw [lines_cons, List.append_assoc, List.cons_append, List.flatten_cons, List.filter_append,
        List.flatten_append, List.count_append]
      refine (holds_record (h fields (.head _)) (.inl rfl)
        (behind_newline _).separated).trans fun last hlast found hread => ?_
      have hline : ∃ found', read .line (lines needs records ++ rest) = some found' ∧
          returns found = returns found' := by
        cases last with
        | quoted => exact absurd rfl hlast
        | «return» => exact ⟨found, hread, rfl⟩
        | _ =>
            obtain ⟨found', hread', rfl⟩ := Option.map_eq_some_iff.mp hread
            exact ⟨found', hread', rfl⟩
      obtain ⟨found', hread', hsame⟩ := hline
      obtain ⟨next, hnext, last, hlast, hcount⟩ := hrest found' hread'
      exact ⟨next, hnext, last, hlast, hsame.trans hcount⟩

theorem count_filter_flatten_le (cells : List (List Char)) :
    (cells.filter needs).flatten.count '\r' ≤ cells.flatten.count '\r' := by
  induction cells with
  | nil => exact Nat.le_refl _
  | cons text cells ih =>
      rw [List.filter_cons]
      split
      · simpa [List.count_append] using ih
      · rw [List.flatten_cons, List.count_append]
        exact Nat.le_add_left_of_le ih

/-- Where no carriage return is lost, all are in quoted fields. -/
theorem needs_of_count {cells : List (List Char)}
    (h : cells.flatten.count '\r' = (cells.filter needs).flatten.count '\r') :
    ∀ text ∈ cells, '\r' ∈ text → needs text := by
  induction cells with
  | nil => exact fun text hmem => absurd hmem List.not_mem_nil
  | cons first cells ih =>
      have hle : (cells.filter needs).flatten.count '\r' ≤ cells.flatten.count '\r' :=
        count_filter_flatten_le cells
      cases hneeds : needs first with
      | true =>
          rw [List.filter_cons_of_pos hneeds, List.flatten_cons, List.flatten_cons,
            List.count_append, List.count_append, Nat.add_right_inj] at h
          exact List.forall_mem_cons.mpr ⟨fun _ => hneeds, ih h⟩
      | false =>
          rw [List.filter_cons_of_neg (by simp [hneeds]), List.flatten_cons,
            List.count_append] at h
          have hnone : first.count '\r' = 0 := by omega
          rw [hnone, Nat.zero_add] at h
          exact List.forall_mem_cons.mpr
            ⟨fun hmem => absurd hmem (List.count_eq_zero.mp hnone), ih h⟩

end CarriageReturns

section Exact

variable {needs : List Char → Bool} {records : Table}

/-- Fields with commas, quotes and line feeds are quoted. -/
def Quotes (needs : List Char → Bool) : Prop :=
  ∀ text, needs text = false → ∀ c ∈ text, c ∈ special → c = '\r'

theorem Quotes.quote_not_mem (h : Quotes needs) {text : List Char} (hneeds : needs text = false) :
    '"' ∉ text := fun hmem => absurd (h text hneeds _ hmem (by decide)) (by decide)

theorem Quotes.not_special (h : Quotes needs) {text : List Char}
    (hreturn : '\r' ∈ text → needs text) (hneeds : needs text = false) :
    ∀ c ∈ text, c ∉ special := by
  intro c hmem hspecial
  rw [h text hneeds c hmem hspecial] at hmem
  rw [hreturn hmem] at hneeds
  cases hneeds

/-- Lines are read back if and only if the fields with carriage returns are quoted. -/
theorem read_lines_iff (h : Quotes needs) (hne : ∀ fields ∈ records, fields ≠ []) :
    read .line (lines needs records) = some records ↔
      ∀ fields ∈ records, ∀ text ∈ fields, '\r' ∈ text → needs text := by
  constructor
  · intro hread
    rw [← List.append_nil (lines needs records)] at hread
    obtain ⟨next, rfl, found, hend, hcount⟩ := holds_lines
      (fun _ _ _ _ hneeds => h.quote_not_mem hneeds) [] records hread
    cases hend
    have hall := needs_of_count hcount
    exact fun fields hfields text htext => hall text (List.mem_flatten_of_mem hfields htext)
  · intro hall
    have hread := read_lines hne
      (fun fields hfields text htext => h.not_special (hall fields hfields text htext)) []
    rw [List.append_nil] at hread
    rw [hread]
    simp [read]

/-- The same where the last line has no line feed and is not empty. -/
theorem read_joined_iff (h : Quotes needs) (hne : ∀ fields ∈ records, fields ≠ [])
    {last : List (List Char)} (hlast : last ≠ []) (htext : record needs last ≠ []) :
    read .line (lines needs records ++ record needs last) = some (records ++ [last]) ↔
      ∀ fields ∈ records ++ [last], ∀ text ∈ fields, '\r' ∈ text → needs text := by
  constructor
  · intro hread
    obtain ⟨next, rfl, found, hfound, hcount⟩ := holds_lines
      (fun _ _ _ _ hneeds => h.quote_not_mem hneeds) _ _ hread
    rw [← List.append_nil (record needs last)] at hfound
    obtain ⟨next, hnext, found', hend, hcount'⟩ := holds_record
      (fun _ _ hneeds => h.quote_not_mem hneeds) (.inl rfl) behind_nil.separated _ hfound
    have hzero : returns found' = 0 := by
      cases next <;> cases hend <;> rfl
    have hsum : returns (records ++ [last]) =
        ((records ++ [last]).flatten.filter needs).flatten.count '\r' := by
      rw [hcount, hcount', hzero, List.flatten_append, List.filter_append, List.flatten_append,
        List.count_append, List.flatten_singleton, Nat.add_zero]
    have hall := needs_of_count hsum
    exact fun fields hfields text htext => hall text (List.mem_flatten_of_mem hfields htext)
  · intro hall
    rw [List.forall_mem_append] at hall
    have hrecords := read_lines hne (fun fields hfields text htext =>
      h.not_special (hall.1 fields hfields text htext)) (record needs last)
    have hread := read_record hlast (fun text htext =>
      h.not_special (hall.2 last (.head _) text htext)) behind_nil
    rw [List.append_nil] at hread
    rw [hrecords, read_line_of_ne_nil htext, hread]
    rfl

end Exact

end Lib.Csv
