import ChainSettle.Lib.Calendar
import ChainSettle.Lib.ContentLines
import ChainSettle.Lib.Utf8
import ChainSettle.Semantics.Database

/-!
`CalendarService.render`, which writes the due dates of milestones as an iCalendar document.
Lines are folded by bytes: a part ends after 75 octets or before the character that these would
cut.

How a long line of a calendar is folded. The bytes are cut after 75 octets, and 74 for the lines
that go on after a space, or before the character that this would split. A character has at most
four bytes, so every cut leaves something in front of it.
-/

namespace ChainSettle

open Lib

def PRODID : String := "-//ChainSettle//Milestone Due Dates//EN"

def EVENT_DURATION_MINUTES : Nat := 30

structure CalendarMilestone where
  id : String
  shipmentId : String
  milestoneIndex : Int
  name : String
  status : String
  dueAt : Option Int

section Text

def replaceChar (c : Char) (text : List Char) : List Char :=
  text.flatMap fun d => if d = c then ['\\', c] else [d]

/-- `replace(/\r\n|\n|\r/g, '\\n')` -/
def replaceBreaks : List Char → List Char
  | '\r' :: '\n' :: rest | '\n' :: rest | '\r' :: rest => '\\' :: 'n' :: replaceBreaks rest
  | c :: rest => c :: replaceBreaks rest
  | [] => []

/-- Backslash first, or the escapes introduced below would be escaped again. -/
def escapeText (value : String) : String :=
  String.ofList (replaceBreaks (replaceChar ',' (replaceChar ';' (replaceChar '\\' value.toList))))

/-- `replace(/\.\d{3}/, '')` -/
def dropMillis : List Char → List Char
  | '.' :: a :: b :: c :: rest =>
      if a.isDigit ∧ b.isDigit ∧ c.isDigit then rest else '.' :: dropMillis (a :: b :: c :: rest)
  | c :: rest => c :: dropMillis rest
  | [] => []

/-- A UTC timestamp, e.g. 20260630T235959Z. -/
def formatUtc (date : Int) : String :=
  String.ofList (dropMillis ((isoTextOf date).filter fun c => c ∉ ['-', ':']))

end Text

section Folding

/-- Do not split a multi-byte sequence: back off to a lead byte. -/
def backOff (bytes : List UInt8) : Nat → Nat
  | 0 => 0
  | length + 1 =>
      if bytes[length + 1]?.any isContinuation then backOff bytes length else length + 1

/-- The parts of the bytes that are left; nothing where the loop would not end. -/
def foldParts : (fuel limit : Nat) → List UInt8 → Option (List (List UInt8))
  | _, _, [] => some []
  | 0, _, _ :: _ => none
  | fuel + 1, limit, bytes =>
      let length := backOff bytes (min limit bytes.length)
      -- Continuation lines carry a leading space, which counts toward the 75.
      (foldParts fuel 74 (bytes.drop length)).map (bytes.take length :: ·)

def foldLine (line : String) : Option String :=
  let bytes := utf8 line.toList
  if bytes.length ≤ 75 then some line
  else
    (foldParts bytes.length 75 bytes).map fun parts =>
      "\r\n ".intercalate (parts.map fun part => String.ofList (decodeUtf8 part))

end Folding

section Document

def CalendarMilestone.summary (milestone : CalendarMilestone) : String :=
  s!"{milestone.name} due ({milestone.shipmentId})"

def CalendarMilestone.description (milestone : CalendarMilestone) : String :=
  s!"Milestone {milestone.milestoneIndex} on shipment {milestone.shipmentId}. " ++
    s!"Status: {milestone.status}."

def renderEvent (milestone : CalendarMilestone) (due : Int) (stamp : String) : List String :=
  let end_ := due + EVENT_DURATION_MINUTES * 60000
  ["BEGIN:VEVENT",
    s!"UID:milestone-{milestone.id}@chainsettle",
    s!"DTSTAMP:{stamp}",
    s!"DTSTART:{formatUtc due}",
    s!"DTEND:{formatUtc end_}",
    s!"SUMMARY:{escapeText milestone.summary}",
    s!"DESCRIPTION:{escapeText milestone.description}",
    "STATUS:CONFIRMED",
    "TRANSP:TRANSPARENT",
    "END:VEVENT"]

def calendarHeader (calendarName : String) : List String :=
  ["BEGIN:VCALENDAR",
    "VERSION:2.0",
    s!"PRODID:{PRODID}",
    "CALSCALE:GREGORIAN",
    "METHOD:PUBLISH",
    s!"X-WR-CALNAME:{escapeText calendarName}"]

/-- The lines of the document before they are folded. -/
def calendarLines (milestones : List CalendarMilestone) (calendarName : String) (now : Int) :
    List String :=
  let stamp := formatUtc now
  let events := milestones.flatMap fun milestone =>
    match milestone.dueAt with
    | none => []
    | some due => renderEvent milestone due stamp
  calendarHeader calendarName ++ events ++ ["END:VCALENDAR"]

def render (milestones : List CalendarMilestone) (calendarName : String) (now : Int) :
    Option String :=
  ((calendarLines milestones calendarName now).mapM foldLine).map fun lines =>
    "\r\n".intercalate lines ++ "\r\n"

end Document

open Lib Lib.ContentLines

section Cuts

theorem backOff_le (bytes : List UInt8) (length : Nat) : backOff bytes length ≤ length := by
  induction length with
  | zero => exact Nat.le_refl _
  | succ length ih =>
      unfold backOff
      split
      · exact Nat.le_succ_of_le ih
      · exact Nat.le_refl _

/-- It stops at the last place to cut. -/
theorem le_backOff {bytes : List UInt8} {length n : Nat} (hn : n ≤ length) (hcut : CutAt bytes n) :
    n ≤ backOff bytes length := by
  induction length with
  | zero => exact hn
  | succ length ih =>
      unfold backOff
      split
      · rename_i hcontinues
        refine ih (Nat.le_of_lt_succ (Nat.lt_of_le_of_ne hn ?_))
        rintro rfl
        exact cutAt_iff.mp hcut hcontinues
      · exact hn

theorem cutAt_backOff {bytes : List UInt8} {length : Nat} (h : CutAt bytes 0) :
    CutAt bytes (backOff bytes length) := by
  induction length with
  | zero => exact h
  | succ length ih =>
      unfold backOff
      split
      · exact ih
      · rename_i hstop
        exact cutAt_iff.mpr hstop

/-- After the first character there is a place to cut. -/
theorem cutAt_firstChar (c : Char) (text : List Char) :
    CutAt (utf8 (c :: text)) (String.utf8EncodeChar c).length := by
  have hzero := cutAt_zero text
  rw [CutAt] at hzero ⊢
  rwa [utf8_cons, List.getElem?_append_right (Nat.le_refl _), Nat.sub_self]

/-- Where the limit leaves room for a character, a part is cut off between characters, within the
limit and not empty. -/
theorem backOff_cuts {limit : Nat} (hlimit : 4 ≤ limit) {text : List Char} (htext : text ≠ []) :
    ∃ a b, text = a ++ b ∧ a ≠ [] ∧ (utf8 a).length ≤ limit ∧ (utf8 b).length < (utf8 text).length ∧
      (utf8 a).length = backOff (utf8 text) (min limit (utf8 text).length) := by
  obtain ⟨c, more, rfl⟩ := List.exists_cons_of_ne_nil htext
  have hchar := charBytes_utf8EncodeChar c
  have hlength : (utf8 (c :: more)).length =
      (String.utf8EncodeChar c).length + (utf8 more).length := by
    rw [utf8_cons, List.length_append]
  generalize hend : backOff (utf8 (c :: more)) (min limit (utf8 (c :: more)).length) = end_
  have hmost : end_ ≤ min limit (utf8 (c :: more)).length := hend ▸ backOff_le _ _
  have hleast : (String.utf8EncodeChar c).length ≤ end_ := by
    rw [← hend]
    refine le_backOff (Nat.le_min.mpr ⟨Nat.le_trans hchar.le hlimit, ?_⟩) (cutAt_firstChar c more)
    rw [hlength]
    exact Nat.le_add_right _ _
  have hcut : CutAt (utf8 (c :: more)) end_ := hend ▸ cutAt_backOff (cutAt_zero _)
  obtain ⟨a, b, hsplit, ha⟩ := exists_cut (Nat.le_trans hmost (Nat.min_le_right _ _)) hcut
  have hpos : 0 < end_ := Nat.lt_of_lt_of_le hchar.pos hleast
  refine ⟨a, b, hsplit, ?_, ha ▸ Nat.le_trans hmost (Nat.min_le_left _ _), ?_, ha⟩
  · rintro rfl
    exact absurd ha (Nat.ne_of_lt hpos)
  · have hsum := congrArg List.length (congrArg utf8 hsplit)
    rw [utf8_append, List.length_append] at hsum
    omega

end Cuts

section Parts

/-- The parts of a text: none is empty, the first is within the limit, and the others leave room
for the space in front of them. -/
structure PartsWithin (limit : Nat) (text : List Char) (parts : List (List Char)) : Prop where
  flatten : parts.flatten = text
  nonempty : ∀ part ∈ parts, part ≠ []
  first_le : ∀ part ∈ parts.head?, (utf8 part).length ≤ limit
  rest_le : ∀ part ∈ parts.tail, (utf8 part).length ≤ 74

theorem PartsWithin.cons {limit : Nat} {a b : List Char} {parts : List (List Char)}
    (h : PartsWithin 74 b parts) (ha : a ≠ []) (hle : (utf8 a).length ≤ limit) :
    PartsWithin limit (a ++ b) (a :: parts) where
  flatten := by rw [List.flatten_cons, h.flatten]
  nonempty := List.forall_mem_cons.mpr ⟨ha, h.nonempty⟩
  first_le := by
    rintro part ⟨⟩
    exact hle
  rest_le := by
    intro part hmem
    cases parts with
    | nil => cases hmem
    | cons first rest =>
        rcases List.mem_cons.mp hmem with rfl | hrest
        · exact h.first_le part rfl
        · exact h.rest_le part hrest

/-- The bytes of a text are cut into those of its parts, and the loop ends. -/
theorem foldParts_utf8 {fuel limit : Nat} (hlimit : 4 ≤ limit) {text : List Char}
    (hfuel : (utf8 text).length ≤ fuel) :
    ∃ parts : List (List Char), foldParts fuel limit (utf8 text) = some (parts.map utf8) ∧
      PartsWithin limit text parts := by
  induction fuel generalizing limit text with
  | zero =>
      have hbytes : utf8 text = [] := List.length_eq_zero_iff.mp (Nat.le_zero.mp hfuel)
      have htext : text = [] := by rw [← decodeUtf8_utf8 text, hbytes]; rfl
      exact ⟨[], by rw [hbytes]; rfl, htext.symm, nofun, nofun, nofun⟩
  | succ fuel ih =>
      by_cases htext : text = []
      · rw [htext]
        exact ⟨[], rfl, rfl, nofun, nofun, nofun⟩
      · obtain ⟨a, b, hsplit, ha, hle, hless, hlength⟩ := backOff_cuts hlimit htext
        have hrest : (utf8 b).length ≤ fuel := by omega
        obtain ⟨parts, hparts, hwithin⟩ := ih (by decide : 4 ≤ 74) hrest
        refine ⟨a :: parts, ?_, hsplit ▸ hwithin.cons ha hle⟩
        obtain ⟨byte, bytes, hbytes⟩ := List.exists_cons_of_ne_nil
          (List.ne_nil_of_length_pos (Nat.zero_lt_of_lt hless))
        rw [hbytes, foldParts, ← hbytes, ← hlength, hsplit, utf8_append, List.drop_left,
          List.take_left, hparts]
        · rfl
        · exact nofun

/-- A folded line is its parts, cut between characters. -/
theorem foldLine_parts (line : Line) :
    ∃ folded : Folded line, foldLine (String.ofList line) = some (String.ofList folded.text) ∧
      (utf8 folded.first).length ≤ 75 ∧ (∀ part ∈ folded.rest, (utf8 part).length ≤ 74) ∧
      (∀ part ∈ folded.rest, part ≠ []) ∧
      (75 < (utf8 line).length → foldParts (utf8 line).length 75 (utf8 line) =
        some ((folded.first :: folded.rest).map utf8)) := by
  unfold foldLine
  simp only [String.toList_ofList]
  split
  · rename_i hshort
    refine ⟨⟨line, [], by simp, id⟩, ?_, hshort, nofun, nofun, fun hlong => ?_⟩
    · rw [Folded.text, List.flatMap_nil, List.append_nil]
    · exact absurd hshort (Nat.not_le.mpr hlong)
  · rename_i hlong
    obtain ⟨parts, hparts, hwithin⟩ :=
      foldParts_utf8 (by decide : 4 ≤ 75) (Nat.le_refl (utf8 line).length)
    cases parts with
    | nil =>
        have hnil : line = [] := hwithin.flatten.symm
        rw [hnil] at hlong
        exact absurd (by decide) hlong
    | cons first rest =>
        obtain ⟨hfirst, hrest⟩ := List.forall_mem_cons.mp hwithin.nonempty
        refine ⟨⟨first, rest, hwithin.flatten, fun _ => hfirst⟩, ?_, hwithin.first_le first rfl,
          hwithin.rest_le, hrest, fun _ => hparts⟩
        have hdecode (texts : List (List Char)) :
            ((texts.map utf8).map fun part => String.ofList (decodeUtf8 part)).map String.toList =
              texts := by
          simp [Function.comp_def, decodeUtf8_utf8]
        rw [hparts, Option.map_some]
        congr 1
        rw [← String.toList_inj, String.toList_intercalate, hdecode, intercalate_cons]
        exact String.toList_ofList.symm

theorem foldLine_ofList (line : Line) :
    ∃ folded : Folded line, foldLine (String.ofList line) = some (String.ofList folded.text) := by
  obtain ⟨folded, hfolded, -⟩ := foldLine_parts line
  exact ⟨folded, hfolded⟩

/-- A line without carriage returns is folded, and read back without its folds. Its physical lines
have at most 75 octets, those that go on are not empty after their space, and the bytes are cut
between characters. -/
theorem fold_lossless_within_limits (line : String) (h : '\r' ∉ line.toList) :
    ∃ (text : String) (first : List Char) (rest : List (List Char)), foldLine line = some text ∧
      removeFolds text.toList = line.toList ∧
      splitLines text.toList = first :: rest.map (' ' :: ·) ∧
      (∀ physical ∈ splitLines text.toList, (utf8 physical).length ≤ 75) ∧
      (∀ part ∈ rest, part ≠ []) ∧ first ++ rest.flatten = line.toList ∧
      (75 < (utf8 line.toList).length → foldParts (utf8 line.toList).length 75 (utf8 line.toList) =
        some ((first :: rest).map utf8)) := by
  obtain ⟨folded, hfolded, hfirst, hrest, hnonempty, hcuts⟩ := foldLine_parts line.toList
  rw [String.ofList_toList] at hfolded
  refine ⟨_, folded.first, folded.rest, hfolded, ?_, ?_, ?_, hnonempty, folded.flatten, hcuts⟩
  · rw [String.toList_ofList, folded.removeFolds_text h]
  · rw [String.toList_ofList, folded.splitLines_text h]
    rfl
  · rw [String.toList_ofList, folded.splitLines_text h, Folded.lines, List.forall_mem_cons,
      List.forall_mem_map]
    refine ⟨hfirst, fun part hmem => ?_⟩
    -- the space is one octet
    have hspace : (utf8 (' ' :: part)).length = 1 + (utf8 part).length := by
      rw [utf8_cons, List.length_append]
      rfl
    have hpart := hrest part hmem
    omega

/-- Two bytes a character, so that the limit is in the middle of one. -/
def accents : String := String.ofList (List.replicate 100 'é')

theorem accents_folded :
    ∃ (text : String) (first : List Char) (rest : List (List Char)), foldLine accents = some text ∧
      removeFolds text.toList = accents.toList ∧
      splitLines text.toList = first :: rest.map (' ' :: ·) ∧
      first ++ rest.flatten = accents.toList := by
  have htext : accents.toList = List.replicate 100 'é' := String.toList_ofList
  have hreturn : '\r' ∉ accents.toList := by
    intro hmem
    rw [htext] at hmem
    exact absurd (List.eq_of_mem_replicate hmem) (by decide)
  obtain ⟨text, first, rest, hfolded, hread, hlines, -, -, hflatten, -⟩ :=
    fold_lossless_within_limits accents hreturn
  exact ⟨text, first, rest, hfolded, hread, hlines, hflatten⟩

end Parts

end ChainSettle
