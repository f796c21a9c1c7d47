import ChainSettle.Feeds.Folding

/-!
What a calendar application reads from a feed: the content lines that were written and no
others, whatever texts are in them.
-/

namespace ChainSettle

open Lib Lib.ContentLines

section Lines

/-- A line in the parts that it is folded into. -/
noncomputable def foldedLine (line : Line) : Folded line := (foldLine_ofList line).choose

theorem foldLine_eq (line : String) :
    foldLine line = some (String.ofList (foldedLine line.toList).text) :=
  (congrArg foldLine String.ofList_toList).symm.trans (foldLine_ofList line.toList).choose_spec

theorem mapM_foldLine (lines : List String) :
    lines.mapM foldLine =
      some (lines.map fun line => String.ofList (foldedLine line.toList).text) := by
  induction lines with
  | nil => rfl
  | cons line lines ih =>
      rw [List.mapM_cons, foldLine_eq, ih]
      rfl

end Lines

section Escaping

/-- What a character is written as, a line break apart. -/
def escapeChar (c : Char) : List Char := if c ∈ ['\\', ';', ','] then ['\\', c] else [c]

theorem toList_escapeText (value : String) :
    (escapeText value).toList = replaceBreaks (value.toList.flatMap escapeChar) := by
  have hchar (c : Char) : ((if c = '\\' then ['\\', '\\'] else [c]).flatMap fun d =>
      (if d = ';' then ['\\', ';'] else [d]).flatMap fun e =>
        if e = ',' then ['\\', ','] else [e]) = escapeChar c := by
    unfold escapeChar
    by_cases hslash : c = '\\'
    · rw [hslash]; rfl
    · by_cases hsemi : c = ';'
      · rw [hsemi]; rfl
      · by_cases hcomma : c = ','
        · rw [hcomma]; rfl
        · simp [hslash, hsemi, hcomma]
  rw [escapeText, String.toList_ofList]
  unfold replaceChar
  rw [List.flatMap_assoc, List.flatMap_assoc]
  congr 1
  exact List.flatMap_congr fun c _ => hchar c

theorem return_not_mem_replaceBreaks (text : List Char) : '\r' ∉ replaceBreaks text := by
  fun_induction replaceBreaks text with
  | case1 rest ih => simpa using ih
  | case2 rest ih => simpa using ih
  | case3 rest _ ih => simpa using ih
  | case4 c rest _ _ hreturn ih =>
      rw [List.mem_cons, not_or]
      exact ⟨fun h => hreturn h.symm, ih⟩
  | case5 => exact List.not_mem_nil

theorem replaceBreaks_cons {c : Char} (hfeed : c ≠ '\n') (hreturn : c ≠ '\r') (rest : List Char) :
    replaceBreaks (c :: rest) = c :: replaceBreaks rest :=
  replaceBreaks.eq_4 c rest (fun _ heq _ => hreturn heq) hfeed hreturn

theorem unescape_cons {c : Char} (h : c ≠ '\\') (rest : List Char) :
    unescape (c :: rest) = c :: unescape rest :=
  unescape.eq_4 c rest (fun _ heq _ => h heq) (fun _ heq _ => h heq) fun _ _ heq _ => h heq

/-- A carriage return alone is a line break, too. -/
theorem replaceBreaks_return {rest : List Char} (h : rest.head? ≠ some '\n') :
    replaceBreaks ('\r' :: rest) = '\\' :: 'n' :: replaceBreaks rest := by
  cases rest with
  | nil => rfl
  | cons c rest =>
      refine replaceBreaks.eq_3 _ fun tail htail => ?_
      rw [htail] at h
      exact h rfl

/-- What is read back is the text, with a line feed for each line break. -/
theorem unescape_escapeText (value : String) :
    unescape (escapeText value).toList = lineFeeds value.toList := by
  rw [toList_escapeText]
  generalize value.toList = text
  fun_induction lineFeeds text with
  | case1 rest ih =>
      rw [List.flatMap_cons, List.flatMap_cons]
      exact congrArg _ ih
  | case2 rest hbreak ih =>
      have hhead : (rest.flatMap escapeChar).head? ≠ some '\n' := by
        cases rest with
        | nil => exact nofun
        | cons c rest =>
            rw [List.flatMap_cons, escapeChar]
            split
            · exact nofun
            · rintro ⟨⟩
              exact hbreak _ rfl
      have hescape : escapeChar '\r' = ['\r'] := rfl
      rw [List.flatMap_cons, hescape, List.singleton_append, replaceBreaks_return hhead]
      exact congrArg _ ih
  | case3 c rest _ hreturn ih =>
      rw [List.flatMap_cons, escapeChar]
      split
      · rename_i hspecial
        simp only [List.mem_cons, List.not_mem_nil, or_false] at hspecial
        rcases hspecial with rfl | rfl | rfl
        · exact congrArg _ ih
        · exact congrArg _ ih
        · exact congrArg _ ih
      · rename_i hplain
        by_cases hfeed : c = '\n'
        · rw [hfeed]
          exact congrArg _ ih
        · have hslash : c ≠ '\\' := by
            rintro rfl
            exact hplain (by decide)
          rw [List.singleton_append, replaceBreaks_cons hfeed hreturn, unescape_cons hslash, ih]
  | case4 => rfl

end Escaping

section Document

/-- A line that begins with a name and has no carriage return. -/
def PlainLine (line : String) : Prop := Starts line.toList ∧ '\r' ∉ line.toList

instance (line : String) : Decidable (PlainLine line) := inferInstanceAs (Decidable (_ ∧ _))

theorem plainLine_append {line rest : String} (h : PlainLine line) (hrest : '\r' ∉ rest.toList) :
    PlainLine (line ++ rest) := by
  rw [PlainLine, String.toList_append, List.mem_append, not_or]
  exact ⟨h.1.append _, h.2, hrest⟩

theorem return_not_mem_dropMillis {text : List Char} (h : '\r' ∉ text) : '\r' ∉ dropMillis text := by
  fun_induction dropMillis text with
  | case1 a b c rest hdigits =>
      exact fun hmem => h (by simp [hmem])
  | case2 a b c rest hdigits ih =>
      rw [List.mem_cons, not_or] at h ⊢
      exact ⟨h.1, ih h.2⟩
  | case3 c rest _ ih =>
      rw [List.mem_cons, not_or] at h ⊢
      exact ⟨h.1, ih h.2⟩
  | case4 => exact h

theorem return_not_mem_formatUtc (date : Int) : '\r' ∉ (formatUtc date).toList := by
  rw [formatUtc, String.toList_ofList]
  exact return_not_mem_dropMillis fun hmem =>
    return_not_mem_isoTextOf date (List.mem_filter.mp hmem).1

theorem return_not_mem_escapeText (value : String) : '\r' ∉ (escapeText value).toList := by
  rw [toList_escapeText]
  exact return_not_mem_replaceBreaks _

theorem plain_header (calendarName : String) :
    ∀ line ∈ calendarHeader calendarName, PlainLine line := by
  unfold calendarHeader
  simp only [List.forall_mem_cons]
  refine ⟨by decide, by decide, by decide, by decide, by decide, ?_, nofun⟩
  exact plainLine_append (by decide) (return_not_mem_escapeText _)

theorem plain_event {milestone : CalendarMilestone} (hid : '\r' ∉ milestone.id.toList) (due : Int)
    {stamp : String} (hstamp : '\r' ∉ stamp.toList) :
    ∀ line ∈ renderEvent milestone due stamp, PlainLine line := by
  unfold renderEvent
  simp only [List.forall_mem_cons]
  refine ⟨by decide, ?_, ?_, ?_, ?_, ?_, ?_, by decide, by decide, by decide, nofun⟩
  · exact plainLine_append (plainLine_append (by decide) hid) (by decide)
  · exact plainLine_append (by decide) hstamp
  · exact plainLine_append (by decide) (return_not_mem_formatUtc _)
  · exact plainLine_append (by decide) (return_not_mem_formatUtc _)
  · exact plainLine_append (by decide) (return_not_mem_escapeText _)
  · exact plainLine_append (by decide) (return_not_mem_escapeText _)

/-- Those that are written, with their due dates. -/
def dueMilestones (milestones : List CalendarMilestone) : List (CalendarMilestone × Int) :=
  milestones.filterMap fun milestone => milestone.dueAt.map (milestone, ·)

theorem calendarLines_eq (milestones : List CalendarMilestone) (calendarName : String) (now : Int) :
    calendarLines milestones calendarName now =
      calendarHeader calendarName ++
        ((dueMilestones milestones).flatMap fun entry =>
          renderEvent entry.1 entry.2 (formatUtc now)) ++ ["END:VCALENDAR"] := by
  have hevents : (milestones.flatMap fun milestone =>
        milestone.dueAt.elim [] fun due => renderEvent milestone due (formatUtc now)) =
      (dueMilestones milestones).flatMap fun entry =>
        renderEvent entry.1 entry.2 (formatUtc now) := by
    unfold dueMilestones
    induction milestones with
    | nil => rfl
    | cons milestone milestones ih =>
        rw [List.flatMap_cons, ih, List.filterMap_cons]
        cases milestone.dueAt with
        | none => rfl
        | some due => rfl
  rw [← hevents]
  refine congrArg (calendarHeader calendarName ++ List.flatMap · milestones ++ ["END:VCALENDAR"]) ?_
  funext milestone
  cases milestone.dueAt with
  | none => rfl
  | some due => rfl

theorem plain_calendarLines {milestones : List CalendarMilestone}
    (hids : ∀ milestone ∈ milestones, '\r' ∉ milestone.id.toList) (calendarName : String)
    (now : Int) : ∀ line ∈ calendarLines milestones calendarName now, PlainLine line := by
  rw [calendarLines_eq, List.forall_mem_append, List.forall_mem_append]
  refine ⟨⟨plain_header _, fun line hmem => ?_⟩, List.forall_mem_singleton.mpr (by decide)⟩
  obtain ⟨⟨milestone, due⟩, hentry, hline⟩ := List.mem_flatMap.mp hmem
  obtain ⟨other, hother, hdue⟩ := List.mem_filterMap.mp hentry
  obtain ⟨_, -, ⟨⟩⟩ := Option.map_eq_some_iff.mp hdue
  exact plain_event (hids _ hother) due (return_not_mem_formatUtc now) line hline

/-- The document is its lines, folded and ended. -/
theorem toList_render (milestones : List CalendarMilestone) (calendarName : String) (now : Int) :
    ∃ text, render milestones calendarName now = some text ∧
      text.toList = (calendarLines milestones calendarName now).flatMap fun line =>
        (foldedLine line.toList).text ++ ['\r', '\n'] := by
  unfold render
  rw [mapM_foldLine]
  refine ⟨_, rfl, ?_⟩
  rw [String.toList_append, String.toList_intercalate, List.map_map]
  have hcons : ∃ first rest, calendarLines milestones calendarName now = first :: rest :=
    ⟨_, _, rfl⟩
  obtain ⟨first, rest, hlines⟩ := hcons
  rw [hlines, List.map_cons]
  refine (intercalate_append_sep _ _ _).trans ?_
  rw [← List.map_cons, List.flatMap_map]
  exact List.flatMap_congr fun line _ => congrArg (· ++ _) String.toList_ofList

/-- The values that a reader finds under a name. -/
def valuesOf (name : String) (lines : List Line) : List Line :=
  lines.filterMap (valueOf name.toList)

theorem valuesOf_append (name : String) (a b : List Line) :
    valuesOf name (a ++ b) = valuesOf name a ++ valuesOf name b := List.filterMap_append

theorem summary_event (milestone : CalendarMilestone) (due : Int) (stamp : String) :
    valuesOf "SUMMARY" ((renderEvent milestone due stamp).map String.toList) =
      [(escapeText milestone.summary).toList] := by
  unfold valuesOf renderEvent
  simp only [List.map_cons, List.filterMap_cons, String.toList_append]
  rfl

theorem description_event (milestone : CalendarMilestone) (due : Int) (stamp : String) :
    valuesOf "DESCRIPTION" ((renderEvent milestone due stamp).map String.toList) =
      [(escapeText milestone.description).toList] := by
  unfold valuesOf renderEvent
  simp only [List.map_cons, List.filterMap_cons, String.toList_append]
  rfl

/-- A name that the header does not use and that has one value in each event. -/
theorem unescape_valuesOf {name : String} {value : CalendarMilestone → String}
    {header : List Line} {stamp : String} (hheader : valuesOf name header = [])
    (hlast : valueOf name.toList "END:VCALENDAR".toList = none)
    (hevent : ∀ milestone due, valuesOf name ((renderEvent milestone due stamp).map String.toList) =
      [(escapeText (value milestone)).toList]) (entries : List (CalendarMilestone × Int)) :
    (valuesOf name (header ++ (entries.flatMap fun entry =>
        (renderEvent entry.1 entry.2 stamp).map String.toList) ++
          ["END:VCALENDAR".toList])).map unescape =
      entries.map fun entry => lineFeeds (value entry.1).toList := by
  have hend : valuesOf name ["END:VCALENDAR".toList] = [] := List.filterMap_cons_none hlast
  rw [valuesOf_append, valuesOf_append, hheader, hend, List.append_nil, List.nil_append]
  induction entries with
  | nil => rfl
  | cons entry entries ih =>
      rw [List.flatMap_cons, valuesOf_append, hevent, List.map_append, ih, List.map_singleton,
        unescape_escapeText]
      rfl

theorem header_values {name : String} (hname : name ∈ ["SUMMARY", "DESCRIPTION"])
    (calendarName : String) :
    valuesOf name ((calendarHeader calendarName).map String.toList) = [] := by
  unfold valuesOf calendarHeader
  simp only [List.map_cons, List.filterMap_cons, String.toList_append]
  rcases List.mem_pair.mp hname with rfl | rfl
  · rfl
  · rfl

/-- An application that reads a feed finds the header, the lines of an event for each milestone
with a due date and the end, and it finds the texts of each event. -/
theorem calendar_read_back (milestones : List CalendarMilestone) (calendarName : String)
    (now : Int) (hids : ∀ milestone ∈ milestones, '\r' ∉ milestone.id.toList) :
    ∃ text lines, render milestones calendarName now = some text ∧
      contentLines text.toList = some lines ∧
      lines = (calendarHeader calendarName ++ ((dueMilestones milestones).flatMap fun entry =>
        renderEvent entry.1 entry.2 (formatUtc now)) ++ ["END:VCALENDAR"]).map String.toList ∧
      lines.length = 6 + 10 * (dueMilestones milestones).length + 1 ∧
      (valuesOf "SUMMARY" lines).map unescape =
        (dueMilestones milestones).map (fun entry => lineFeeds entry.1.summary.toList) ∧
      (valuesOf "DESCRIPTION" lines).map unescape =
        (dueMilestones milestones).map fun entry => lineFeeds entry.1.description.toList := by
  have hplain := plain_calendarLines hids calendarName now
  obtain ⟨text, hrender, htext⟩ := toList_render milestones calendarName now
  have hread : contentLines text.toList =
      some ((calendarLines milestones calendarName now).map String.toList) := by
    rw [htext, ← List.flatMap_map (f := String.toList)
      (g := fun line => (foldedLine line).text ++ ['\r', '\n'])]
    refine contentLines_folded foldedLine ?_ ?_
    · exact List.forall_mem_map.mpr fun line hmem => (hplain line hmem).2
    · exact List.forall_mem_map.mpr fun line hmem => (hplain line hmem).1
  rw [calendarLines_eq] at hread
  refine ⟨text, _, hrender, hread, rfl, ?_, ?_, ?_⟩
  · have hevent (entry : CalendarMilestone × Int) :
        (renderEvent entry.1 entry.2 (formatUtc now)).length = 10 := rfl
    have hheader : (calendarHeader calendarName).length = 6 := rfl
    rw [List.length_map, List.length_append, List.length_append, List.length_flatMap, hheader,
      List.map_congr_left fun entry _ => hevent entry, List.map_const', List.sum_replicate_nat,
      Nat.mul_comm]
    rfl
  · rw [List.map_append, List.map_append, List.map_flatMap]
    exact unescape_valuesOf (header_values (by decide) _) rfl
      (fun milestone due => summary_event milestone due _) _
  · rw [List.map_append, List.map_append, List.map_flatMap]
    exact unescape_valuesOf (header_values (by decide) _) rfl
      (fun milestone due => description_event milestone due _) _

/-- A milestone whose name would end the calendar if its line break were written. -/
def brokenName : CalendarMilestone where
  id := "m1"
  shipmentId := "S1"
  milestoneIndex := 0
  name := "Duty; tax,\r\nEND:VCALENDAR"
  status := "PENDING"
  dueAt := some 0

theorem broken_name_read_back :
    ∃ text lines, render [brokenName] "Shipment S1 milestones" 0 = some text ∧
      contentLines text.toList = some lines ∧ lines.length = 17 ∧
      (valuesOf "SUMMARY" lines).map unescape =
        ["Duty; tax,\nEND:VCALENDAR due (S1)".toList] := by
  obtain ⟨text, lines, hrender, hread, -, hlength, hsummary, -⟩ :=
    calendar_read_back [brokenName] "Shipment S1 milestones" 0 (by decide)
  exact ⟨text, lines, hrender, hread, hlength, hsummary.trans (by decide)⟩

end Document

end ChainSettle
