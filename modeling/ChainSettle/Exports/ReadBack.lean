import ChainSettle.Lib.Csv
import ChainSettle.Semantics.Kyc
import ChainSettle.Semantics.Serialization

/-!
The three writers of CSV exports: `buildCsvFromRows` for the audit log and the volume report,
`ShipmentsService.buildCsv`, and the export of users of the admin dashboard. All of them quote a
cell with a comma, a quote or a line feed. `readCsv` is what a reader of the files sees.

What a reader gets back from a CSV export. The writers quote a cell with a line feed but not one
with a carriage return alone, at which a reader ends the line.
-/

namespace ChainSettle

open Lib

section Cells

/-- The test that each writer makes before it writes a cell. -/
def needsQuotes (text : List Char) : Bool :=
  text.contains ',' || text.contains '"' || text.contains '\n'

/-- A cell with `""` for each quote where it is quoted. -/
def quoteCell (text : String) : String := String.ofList (Csv.field needsQuotes text.toList)

def joinCells (cells : List String) : String := ",".intercalate cells

def readCsv (text : String) : Option (List (List String)) :=
  (Csv.read .line text.toList).map fun records =>
    records.map fun fields => fields.map String.ofList

end Cells

section Rows

/-- A row with the text of each value, and nothing for `null` or `undefined`. -/
abbrev CsvRow := Fields String (Option String)

def escapeValue (value : Option String) : String :=
  match value with
  | none => ""
  | some stringValue => quoteCell stringValue

def CsvRow.value (row : CsvRow) (header : String) : Option String := (Fields.get? row header).join

/-- The columns are the keys of the first row. -/
def buildCsvFromRows (rows : List CsvRow) : String :=
  match rows with
  | [] => ""
  | first :: _ =>
      let headers := first.map Prod.fst
      let lines := joinCells headers :: rows.map fun row =>
        joinCells (headers.map fun header => escapeValue (row.value header))
      "\n".intercalate lines ++ "\n"

end Rows

section Shipments

/-- A shipment as `exportForUser` loads it. -/
structure ExportedShipment where
  row : ShipmentRow
  milestones : List Milestone

def exportHeaders : List String :=
  ["shipmentId", "buyerAddress", "supplierAddress", "logisticsAddress", "arbiterAddress",
    "totalAmount", "releasedAmount", "status", "createdAt", "expectedDeliveryAt", "milestoneName",
    "milestoneIndex", "paymentPercent", "milestoneStatus", "proofHash", "confirmedAt"]

/-- The decimals are always those of USDC. -/
def toUsdc (raw : Int) : String := toHumanAmount raw 7

/-- `value?.toISOString() ?? ''` -/
def isoOrEmpty (time : Option Nat) : String := (time.map toISOString).getD ""

namespace ExportedShipment

variable (s : ExportedShipment)

def base : List String :=
  [s.row.id, s.row.buyerAddress, s.row.supplierAddress, s.row.logisticsAddress,
    s.row.arbiterAddress, toUsdc s.row.totalAmount, toUsdc s.row.releasedAmount,
    s.row.status.name, toISOString s.row.createdAt, isoOrEmpty s.row.expectedDeliveryAt]

def milestoneCells (m : Milestone) : List String :=
  [m.name, toString m.milestoneIndex, toString m.paymentPercent, m.status.name,
    m.proofHash.getD "", isoOrEmpty m.confirmedAt]

/-- One record for each milestone, or one without. -/
def records : List (List String) :=
  if s.milestones = [] then [s.base ++ List.replicate 6 ""]
  else s.milestones.map fun m => s.base ++ milestoneCells m

end ExportedShipment

def buildCsv (shipments : List ExportedShipment) : String :=
  "\n".intercalate (joinCells exportHeaders ::
    (shipments.flatMap ExportedShipment.records).map fun record =>
      joinCells (record.map quoteCell))

end Shipments

section Users

def UserRole.name : UserRole → String
  | .buyer => "BUYER"
  | .supplier => "SUPPLIER"
  | .logistics => "LOGISTICS"
  | .arbiter => "ARBITER"
  | .admin => "ADMIN"

/-- The columns of a user that the export selects. -/
structure ExportedUser where
  id : String
  stellarAddress : String
  email : Option String
  name : Option String
  role : UserRole
  kycStatus : KycStatus
  emailVerified : Bool
  deactivatedAt : Option Nat
  createdAt : Nat

def userHeaders : List String :=
  ["id", "stellarAddress", "email", "name", "role", "kycStatus", "emailVerified",
    "deactivatedAt", "createdAt"]

def ExportedUser.cells (user : ExportedUser) : List String :=
  [user.id, user.stellarAddress, user.email.getD "", user.name.getD "", user.role.name,
    user.kycStatus.name, toString user.emailVerified, isoOrEmpty user.deactivatedAt,
    toISOString user.createdAt]

def ExportedUser.line (user : ExportedUser) : String :=
  joinCells (user.cells.map quoteCell) ++ "\n"

/-- All that is written to the response, for the batches that are read. -/
def exportUsersCsv (batches : List (List ExportedUser)) : String :=
  joinCells userHeaders ++ "\n" ++
    String.join (batches.map fun batch => String.join (batch.map ExportedUser.line))

end Users

section Lines

/-- A cell with a carriage return is quoted, for another character in it. -/
def ReturnsQuoted (cell : String) : Prop :=
  '\r' ∈ cell.toList → ',' ∈ cell.toList ∨ '"' ∈ cell.toList ∨ '\n' ∈ cell.toList

instance (cell : String) : Decidable (ReturnsQuoted cell) :=
  inferInstanceAs (Decidable (_ → _))

/-- No comma, quote or line end. -/
def PlainHeader (header : String) : Prop := ∀ c ∈ header.toList, c ∉ Csv.special

instance (header : String) : Decidable (PlainHeader header) :=
  List.decidableBAll _ header.toList

theorem needsQuotes_iff {text : List Char} :
    needsQuotes text = true ↔ ',' ∈ text ∨ '"' ∈ text ∨ '\n' ∈ text := by
  simp [needsQuotes, or_assoc]

theorem quotes_needsQuotes : Csv.Quotes needsQuotes := by
  intro text hneeds c hmem hspecial
  have hnone : ¬ (',' ∈ text ∨ '"' ∈ text ∨ '\n' ∈ text) := by
    rw [← needsQuotes_iff, hneeds]
    exact Bool.false_ne_true
  simp only [Csv.special, List.mem_cons, List.not_mem_nil, or_false] at hspecial
  rcases hspecial with rfl | rfl | rfl | rfl
  · exact absurd (.inl hmem) hnone
  · exact absurd (.inr (.inl hmem)) hnone
  · exact absurd (.inr (.inr hmem)) hnone
  · rfl

/-- The fields of a line. -/
def fieldsOf (cells : List String) : List (List Char) := cells.map String.toList

theorem returnsQuoted_iff {cells : List String} :
    (∀ cell ∈ cells, ReturnsQuoted cell) ↔
      ∀ text ∈ fieldsOf cells, '\r' ∈ text → needsQuotes text := by
  unfold fieldsOf ReturnsQuoted
  simp only [List.forall_mem_map, needsQuotes_iff]

theorem toList_joinCells (cells : List String) :
    (joinCells (cells.map quoteCell)).toList = Csv.record needsQuotes (fieldsOf cells) := by
  have hcells : (cells.map quoteCell).map String.toList =
      (fieldsOf cells).map (Csv.field needsQuotes) := by
    rw [fieldsOf, List.map_map, List.map_map]
    exact List.map_congr_left fun _ _ => String.toList_ofList
  rw [joinCells, String.toList_intercalate, hcells]
  rfl

/-- Plain headers are written as they would be if they were cells. -/
theorem quoteCell_of_plain {header : String} (h : PlainHeader header) : quoteCell header = header := by
  have hneeds : needsQuotes header.toList = false := by
    rw [← Bool.not_eq_true, needsQuotes_iff]
    rintro (hmem | hmem | hmem)
    · exact h _ hmem (by decide)
    · exact h _ hmem (by decide)
    · exact h _ hmem (by decide)
  rw [quoteCell, Csv.field, if_neg (by simp [hneeds]), String.ofList_toList]

theorem joinCells_headers {headers : List String} (h : ∀ header ∈ headers, PlainHeader header) :
    joinCells headers = joinCells (headers.map quoteCell) := by
  rw [List.map_congr_left fun header hmem => quoteCell_of_plain (h header hmem), List.map_id']

theorem plain_returnsQuoted {header : String} (h : PlainHeader header) : ReturnsQuoted header :=
  fun hmem => absurd (by decide) (h '\r' hmem)

/-- A file is read as a table if and only if its characters are. -/
theorem readCsv_eq_some_iff {text : String} {rows : List (List String)} :
    readCsv text = some rows ↔ Csv.read .line text.toList = some (rows.map fieldsOf) := by
  have hback (records : Csv.Table) : (records.map fun fields => fields.map String.ofList) = rows ↔
      records = rows.map fieldsOf := by
    constructor
    · rintro rfl
      simp [fieldsOf, Function.comp_def]
    · rintro rfl
      simp [fieldsOf, Function.comp_def]
  unfold readCsv
  rw [Option.map_eq_some_iff]
  constructor
  · rintro ⟨records, hread, hrows⟩
    rw [hread, (hback records).mp hrows]
  · intro hread
    exact ⟨_, hread, (hback _).mpr rfl⟩

theorem forall_fieldsOf {rows : List (List String)} {p : List Char → Prop} :
    (∀ fields ∈ rows.map fieldsOf, ∀ text ∈ fields, p text) ↔
      ∀ row ∈ rows, ∀ text ∈ fieldsOf row, p text := by
  rw [List.forall_mem_map]

theorem fieldsOf_ne_nil {rows : List (List String)} (h : ∀ row ∈ rows, row ≠ []) :
    ∀ fields ∈ rows.map fieldsOf, fields ≠ [] := by
  rw [List.forall_mem_map]
  exact fun row hrow hnil => h row hrow (List.map_eq_nil_iff.mp hnil)

/-- Lines that all end with a line feed are read back if and only if no cell with a carriage
return is left unquoted. -/
theorem readCsv_lines_iff {rows : List (List String)} (hne : ∀ row ∈ rows, row ≠ []) {text : String}
    (htext : text.toList = Csv.lines needsQuotes (rows.map fieldsOf)) :
    readCsv text = some rows ↔ ∀ row ∈ rows, ∀ cell ∈ row, ReturnsQuoted cell := by
  rw [readCsv_eq_some_iff, htext,
    Csv.read_lines_iff quotes_needsQuotes (fieldsOf_ne_nil hne), forall_fieldsOf]
  exact forall₂_congr fun row _ => returnsQuoted_iff.symm

/-- A line of cells. -/
def lineOf (cells : List String) : String := joinCells (cells.map quoteCell)

theorem toList_lines (rows : List (List String)) :
    (rows.map fun row => (lineOf row).toList).flatMap (· ++ ['\n']) =
      Csv.lines needsQuotes (rows.map fieldsOf) := by
  rw [Csv.lines, List.flatMap_map, List.flatMap_map]
  exact List.flatMap_congr fun row _ => by rw [lineOf, toList_joinCells]

theorem toList_intercalate_lines (init : List (List String)) (last : List String) :
    ("\n".intercalate ((init ++ [last]).map lineOf)).toList =
      Csv.lines needsQuotes (init.map fieldsOf) ++ Csv.record needsQuotes (fieldsOf last) := by
  have hlast : (lineOf last).toList = Csv.record needsQuotes (fieldsOf last) := toList_joinCells last
  rw [String.toList_intercalate, List.map_map, List.map_append, List.map_singleton,
    intercalate_append_singleton, ← toList_lines, Function.comp_apply, hlast]
  rfl

theorem exists_init_last {α : Type} (first : α) (rest : List α) :
    ∃ init last, first :: rest = init ++ [last] := by
  rcases List.eq_nil_or_concat (first :: rest) with hnil | ⟨init, last, hconcat⟩
  · cases hnil
  · exact ⟨init, last, by rw [hconcat, List.concat_eq_append]⟩

end Lines

section Writers

/-- The cells of a row under the headers. -/
def CsvRow.cells (row : CsvRow) (headers : List String) : List String :=
  headers.map fun header => (row.value header).getD ""

theorem escapeValue_eq (value : Option String) : escapeValue value = quoteCell (value.getD "") := by
  cases value with
  | none => rfl
  | some text => rfl

/-- The rows come back with the headers, empty cells for missing values. -/
theorem buildCsvFromRows_iff (first : CsvRow) (rest : List CsvRow) (hne : first ≠ [])
    (hplain : ∀ header ∈ first.map Prod.fst, PlainHeader header) :
    readCsv (buildCsvFromRows (first :: rest)) =
        some (first.map Prod.fst :: (first :: rest).map fun row => row.cells (first.map Prod.fst)) ↔
      ∀ row ∈ first :: rest, ∀ cell ∈ row.cells (first.map Prod.fst), ReturnsQuoted cell := by
  generalize hheaders : first.map Prod.fst = headers at *
  have hheadersne : headers ≠ [] := by
    rintro rfl
    exact hne (List.map_eq_nil_iff.mp hheaders)
  have hrows : ∀ cells ∈ headers :: (first :: rest).map (fun row => row.cells headers),
      cells ≠ [] := by
    rw [List.forall_mem_cons, List.forall_mem_map]
    exact ⟨hheadersne, fun row _ hnil => hheadersne (List.map_eq_nil_iff.mp hnil)⟩
  have hlines : joinCells headers :: (first :: rest).map (fun row =>
        joinCells (headers.map fun header => escapeValue (row.value header))) =
      (headers :: (first :: rest).map fun row => row.cells headers).map lineOf := by
    rw [List.map_cons (f := lineOf), lineOf, ← joinCells_headers hplain, List.map_map]
    congr 1
    refine List.map_congr_left fun row _ => ?_
    rw [Function.comp_apply, lineOf, CsvRow.cells, List.map_map]
    congr 1
    exact List.map_congr_left fun header _ => escapeValue_eq _
  have htext : (buildCsvFromRows (first :: rest)).toList = Csv.lines needsQuotes
      ((headers :: (first :: rest).map fun row => row.cells headers).map fieldsOf) := by
    obtain ⟨init, last, hsplit⟩ := exists_init_last headers
      ((first :: rest).map fun row => row.cells headers)
    unfold buildCsvFromRows
    simp only [hheaders, hlines]
    rw [hsplit, String.toList_append, toList_intercalate_lines, List.map_append,
      Csv.lines_append, List.map_singleton, Csv.lines_cons, List.append_assoc]
    rfl
  rw [readCsv_lines_iff hrows htext, List.forall_mem_cons]
  rw [and_iff_right fun header hmem => plain_returnsQuoted (hplain header hmem),
    List.forall_mem_map]

theorem exportHeaders_plain : ∀ header ∈ exportHeaders, PlainHeader header := by
  decide

theorem userHeaders_plain : ∀ header ∈ userHeaders, PlainHeader header := by
  decide

theorem records_ne_nil (s : ExportedShipment) : ∀ record ∈ s.records, 2 ≤ record.length := by
  have hbase : s.base.length = 10 := rfl
  intro record hmem
  unfold ExportedShipment.records at hmem
  split at hmem
  · rw [List.mem_singleton.mp hmem, List.length_append, hbase]
    exact Nat.le_add_right_of_le (by decide)
  · obtain ⟨m, -, rfl⟩ := List.mem_map.mp hmem
    rw [List.length_append, hbase]
    exact Nat.le_add_right_of_le (by decide)

theorem buildCsv_iff (shipments : List ExportedShipment) :
    readCsv (buildCsv shipments) =
        some (exportHeaders :: shipments.flatMap ExportedShipment.records) ↔
      ∀ record ∈ shipments.flatMap ExportedShipment.records, ∀ cell ∈ record,
        ReturnsQuoted cell := by
  have hlines : joinCells exportHeaders :: (shipments.flatMap ExportedShipment.records).map
        (fun record => joinCells (record.map quoteCell)) =
      (exportHeaders :: shipments.flatMap ExportedShipment.records).map lineOf := by
    rw [List.map_cons (f := lineOf), lineOf, ← joinCells_headers exportHeaders_plain]
    rfl
  have hlength : ∀ record ∈ exportHeaders :: shipments.flatMap ExportedShipment.records,
      2 ≤ record.length := by
    rw [List.forall_mem_cons]
    refine ⟨by decide, fun record hmem => ?_⟩
    obtain ⟨s, -, hrecord⟩ := List.mem_flatMap.mp hmem
    exact records_ne_nil s record hrecord
  have hall : (∀ record ∈ shipments.flatMap ExportedShipment.records, ∀ cell ∈ record,
        ReturnsQuoted cell) ↔
      ∀ record ∈ exportHeaders :: shipments.flatMap ExportedShipment.records, ∀ cell ∈ record,
        ReturnsQuoted cell := by
    rw [List.forall_mem_cons]
    exact (and_iff_right fun header hmem =>
      plain_returnsQuoted (exportHeaders_plain header hmem)).symm
  have htext : buildCsv shipments = "\n".intercalate
      ((exportHeaders :: shipments.flatMap ExportedShipment.records).map lineOf) := by
    rw [buildCsv, hlines]
  rw [hall, htext]
  obtain ⟨init, last, hsplit⟩ := exists_init_last exportHeaders
    (shipments.flatMap ExportedShipment.records)
  rw [hsplit] at hlength ⊢
  rw [List.forall_mem_append, List.forall_mem_singleton] at hlength
  have hlast : fieldsOf last ≠ [] := by
    intro hnil
    have := hlength.2
    rw [List.map_eq_nil_iff.mp hnil] at this
    exact absurd this (by decide)
  have hcomma : Csv.record needsQuotes (fieldsOf last) ≠ [] := by
    match last, hlength.2 with
    | a :: b :: rest, _ => simp [fieldsOf, Csv.record]
  have hinit : ∀ fields ∈ init.map fieldsOf, fields ≠ [] := by
    refine fieldsOf_ne_nil fun row hrow hnil => ?_
    have := hlength.1 row hrow
    rw [hnil] at this
    exact absurd this (by decide)
  rw [readCsv_eq_some_iff, toList_intercalate_lines, List.map_append, List.map_singleton,
    Csv.read_joined_iff quotes_needsQuotes hinit hlast hcomma, ← List.map_singleton (f := fieldsOf),
    ← List.map_append, forall_fieldsOf]
  exact forall₂_congr fun row _ => returnsQuoted_iff.symm

theorem exportUsersCsv_iff (batches : List (List ExportedUser)) :
    readCsv (exportUsersCsv batches) =
        some (userHeaders :: batches.flatten.map ExportedUser.cells) ↔
      ∀ user ∈ batches.flatten, ∀ cell ∈ user.cells, ReturnsQuoted cell := by
  have hrows : ∀ row ∈ userHeaders :: batches.flatten.map ExportedUser.cells, row ≠ [] := by
    rw [List.forall_mem_cons, List.forall_mem_map]
    exact ⟨by decide, fun user _ => List.cons_ne_nil _ _⟩
  have hline (user : ExportedUser) : user.line.toList = (lineOf user.cells).toList ++ ['\n'] :=
    String.toList_append
  have hlines : (String.join (batches.map fun batch => String.join (batch.map
      ExportedUser.line))).toList =
        Csv.lines needsQuotes ((batches.flatten.map ExportedUser.cells).map fieldsOf) := by
    rw [← toList_lines, List.map_map, List.flatMap_map, String.toList_join, List.flatMap_map]
    simp only [String.toList_join, List.flatMap_map, hline, Function.comp_apply]
    rw [← List.flatMap_id, List.flatMap_assoc]
    rfl
  have htext : (exportUsersCsv batches).toList = Csv.lines needsQuotes
      ((userHeaders :: batches.flatten.map ExportedUser.cells).map fieldsOf) := by
    rw [exportUsersCsv, String.toList_append, String.toList_append, hlines,
      joinCells_headers userHeaders_plain, toList_joinCells, List.map_cons, Csv.lines_cons,
      List.append_assoc]
    rfl
  rw [readCsv_lines_iff hrows htext, List.forall_mem_cons]
  rw [and_iff_right fun header hmem => plain_returnsQuoted (userHeaders_plain header hmem),
    List.forall_mem_map]

/-- Each of the three exports comes back with its headers, row by row and cell by cell, if and
only if every cell with a carriage return has a comma, a quote or a line feed as well. -/
theorem exports_read_back_iff (first : CsvRow) (rest : List CsvRow) (hne : first ≠ [])
    (hplain : ∀ header ∈ first.map Prod.fst, PlainHeader header)
    (shipments : List ExportedShipment) (batches : List (List ExportedUser)) :
    (readCsv (buildCsvFromRows (first :: rest)) =
        some (first.map Prod.fst ::
          (first :: rest).map fun row => row.cells (first.map Prod.fst)) ↔
      ∀ row ∈ first :: rest, ∀ cell ∈ row.cells (first.map Prod.fst), ReturnsQuoted cell) ∧
    (readCsv (buildCsv shipments) =
        some (exportHeaders :: shipments.flatMap ExportedShipment.records) ↔
      ∀ record ∈ shipments.flatMap ExportedShipment.records, ∀ cell ∈ record,
        ReturnsQuoted cell) ∧
    (readCsv (exportUsersCsv batches) =
        some (userHeaders :: batches.flatten.map ExportedUser.cells) ↔
      ∀ user ∈ batches.flatten, ∀ cell ∈ user.cells, ReturnsQuoted cell) :=
  ⟨buildCsvFromRows_iff first rest hne hplain, buildCsv_iff shipments, exportUsersCsv_iff batches⟩

theorem quoted_return_read_back :
    readCsv (buildCsvFromRows [[("action", some "a,\r"), ("ipAddress", none)]]) =
      some [["action", "ipAddress"], ["a,\r", ""]] :=
  (exports_read_back_iff [("action", some "a,\r"), ("ipAddress", none)] [] (List.cons_ne_nil _ _)
    (by decide) [] []).1.mpr (by decide)

/-- A shipment whose only milestone has this name. -/
def namedMilestone (name : String) : ExportedShipment where
  row :=
    { id := "SHIP-1", buyerAddress := "GBUYER", supplierAddress := "GSUPPLIER",
      logisticsAddress := "GLOGISTICS", arbiterAddress := "GARBITER", arbiterStatus := .accepted,
      totalAmount := 10000000, releasedAmount := 0, status := .active, requiredApprovals := none,
      cancelledAt := none, refundTxHash := none, txHash := none, tokenAddress := "CUSDC",
      tokenDecimals := 7, tokenSymbol := "USDC", referenceNumber := none, isDraft := false,
      createdLedger := none, description := none, metadata := none, tags := [],
      expectedDeliveryAt := none, createdAt := 0, updatedAt := 0 }
  milestones :=
    [{ id := "m-1", shipmentId := "SHIP-1", milestoneIndex := 0, proofHash := none,
       status := .pending, paymentReleased := none, confirmedAt := none, disputedAt := none,
       deletedAt := none, name, paymentPercent := 100, dueAt := none, overdueNotifiedAt := none,
       overdueReminder3dAt := none, disputeEscalatedAt := none }]

def namedUser (name : String) : ExportedUser :=
  ⟨"u-1", "GBUYER", none, some name, .buyer, .unverified, false, none, 0⟩

/-- One carriage return in a cell of each export. -/
theorem return_ends_line :
    readCsv (buildCsvFromRows [[("action", some "a\rb")]]) ≠ some [["action"], ["a\rb"]] ∧
      readCsv (buildCsv [namedMilestone "a\rb"]) ≠
        some (exportHeaders :: (namedMilestone "a\rb").records) ∧
      readCsv (exportUsersCsv [[namedUser "a\rb"]]) ≠
        some [userHeaders, (namedUser "a\rb").cells] := by
  have hcell : ¬ ReturnsQuoted "a\rb" := by decide
  refine ⟨fun h => hcell ?_, fun h => hcell ?_, fun h => hcell ?_⟩
  · exact (buildCsvFromRows_iff [("action", some "a\rb")] [] (List.cons_ne_nil _ _)
      (by decide)).mp h _ (.head _) _ (.head _)
  · refine (buildCsv_iff [namedMilestone "a\rb"]).mp h _ (.head _) _ ?_
    exact List.mem_append_right _ (.head _)
  · exact (exportUsersCsv_iff [[namedUser "a\rb"]]).mp h _ (.head _) _
      (.tail _ (.tail _ (.tail _ (.head _))))

end Writers

end ChainSettle
