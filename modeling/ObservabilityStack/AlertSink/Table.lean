import ObservabilityStack.AlertSink.Check
import ObservabilityStack.Lib.Lines
import ObservabilityStack.Lib.Sorting
import Mathlib.Data.Prod.Lex
import Mathlib.Data.String.Basic

/-!
# `render`: the table of `check-alerts`

A row is printed as five fields, the first four padded to the width of their column. The header
names the columns and nothing separates them: a field that fills its column has no blank after
it, and the next field begins right there. So the table can be read back with `split()` exactly
when every field is shorter than its column (`table_reads_back_iff`). The order of the rows does
not depend on that.

Reading back is the converse of printing, and it is asked for here because a table is what people
cut columns from. The values must have no blanks in them for that to make sense at all (`Plain`);
they do not have to be of any length, and the length is where it fails.
-/

set_option autoImplicit false

namespace ObservabilityStack
namespace AlertSink

open Python (ljust split splitLines isWhitespace)
open Sorting (sortBy)

/-- The line of a row; a field that is wider than its column is not cut. -/
def formatRow (row : AlertRow) : String :=
  ljust 13 row.source ++ ljust 34 row.alertname ++ ljust 10 row.severity ++ ljust 18 row.job ++
    row.state

/-- The heading, laid out as a row is. -/
def header : String :=
  ljust 13 "SOURCE" ++ ljust 34 "ALERT" ++ ljust 10 "SEVERITY" ++ ljust 18 "JOB" ++ "STATE"

/-- `"-" * len(header)`. -/
def rule : String := String.ofList (List.replicate header.length '-')

/-- `ordering.get(source, 9)`. -/
def ordering (source : String) : ℕ :=
  if source = "prometheus" then 0
  else if source = "alertmanager" then 1
  else if source = "notified" then 2
  else 9

/-- The key of the sort; tuples compare their first components first. -/
def sortKey (row : AlertRow) : String ×ₗ ℕ := toLex (row.alertname, ordering row.source)

/-- `render`: the verdict for no rows, and otherwise the table, sorted. -/
def render (rows : List AlertRow) : String :=
  if rows = [] then "nothing is firing anywhere - the stack is quiet"
  else "\n".intercalate (header :: rule :: (sortBy sortKey rows).map formatRow)

/-! ## What it is to read the table back -/

def AlertRow.fields (row : AlertRow) : List String :=
  [row.source, row.alertname, row.severity, row.job, row.state]

/-- No field is empty or holds white space. -/
def AlertRow.Plain (row : AlertRow) : Prop :=
  ∀ field ∈ row.fields, Lines.IsWord isWhitespace field.toList

instance (row : AlertRow) : Decidable row.Plain :=
  inferInstanceAs (Decidable (∀ field ∈ row.fields, Lines.IsWord isWhitespace field.toList))

/-- Every field but the last is shorter than its column. -/
def AlertRow.Fits (row : AlertRow) : Prop :=
  row.source.length < 13 ∧ row.alertname.length < 34 ∧ row.severity.length < 10 ∧
    row.job.length < 18

instance (row : AlertRow) : Decidable row.Fits := inferInstanceAs (Decidable (_ ∧ _))

/-- `sorted` is the stable sort of `rows` by alert and by stage of the delivery, and what that
    means for one alert: its rows stand together and in the order of the delivery. -/
structure StablySorted (rows sorted : List AlertRow) : Prop where
  perm : sorted.Perm rows
  ordered : sorted.Pairwise fun a b => sortKey a ≤ sortKey b
  /-- Rows of one key stay in the order in which they came. -/
  stable : ∀ key, sorted.filter (fun row => sortKey row = key) =
    rows.filter fun row => sortKey row = key
  /-- The rows of an alert are a block… -/
  together : ∀ name, ∃ before after,
    sorted = before ++ sorted.filter (fun row => row.alertname = name) ++ after ∧
    ∀ row ∈ before ++ after, row.alertname ≠ name
  /-- …in the order in which an alert is delivered. -/
  delivery : ∀ name, (sorted.filter fun row => row.alertname = name).Pairwise
    fun a b => ordering a.source ≤ ordering b.source

/-- Two header lines, and then one line for each row, which `split()` takes apart into its
    fields. -/
def ReadsBack (rows : List AlertRow) : Prop :=
  ∃ sorted body, StablySorted rows sorted ∧ splitLines (render rows) = header :: rule :: body ∧
    body.map split = sorted.map AlertRow.fields

/-! ## The order

The key is a pair, and the sort is stable, so the order is by the first component, then by the
second, then by the order of arrival. -/

theorem alertname_le_of_sortKey_le {a b : AlertRow} (h : sortKey a ≤ sortKey b) :
    a.alertname ≤ b.alertname := by
  rcases Prod.Lex.toLex_le_toLex.mp h with hlt | heq
  · exact hlt.le
  · exact heq.1.le

theorem ordering_le_of_sortKey_le {a b : AlertRow} (h : sortKey a ≤ sortKey b)
    (hname : a.alertname = b.alertname) : ordering a.source ≤ ordering b.source := by
  rcases Prod.Lex.toLex_le_toLex.mp h with hlt | heq
  · exact absurd hname hlt.ne
  · exact heq.2

/-- **`sorted` with that key is the stable sort.** -/
theorem stablySorted_sortBy (rows : List AlertRow) : StablySorted rows (sortBy sortKey rows) := by
  have hordered := Sorting.pairwise_sortBy sortKey rows
  refine ⟨Sorting.sortBy_perm sortKey rows, hordered, fun key => Sorting.filter_sortBy _ key rows,
    ?_, ?_⟩
  · intro name
    have hnames : (sortBy sortKey rows).Pairwise fun a b => a.alertname ≤ b.alertname :=
      hordered.imp alertname_le_of_sortKey_le
    refine ⟨_, _, Sorting.eq_append_filter_append hnames name, ?_⟩
    intro row hrow
    rcases List.mem_append.mp hrow with hrow | hrow
    · exact (of_decide_eq_true (List.mem_filter.mp hrow).2).ne
    · exact (of_decide_eq_true (List.mem_filter.mp hrow).2).ne'
  · intro name
    have hsub := hordered.sublist (List.filter_sublist (p := fun row => row.alertname = name))
    refine hsub.imp_of_mem ?_
    intro a b ha hb hkey
    have hna : a.alertname = name := of_decide_eq_true (List.mem_filter.mp ha).2
    have hnb : b.alertname = name := of_decide_eq_true (List.mem_filter.mp hb).2
    exact ordering_le_of_sortKey_le hkey (hna.trans hnb.symm)

/-! ## One line

A row as a list of cells: `Lines` has the theorem that padded cells can be told apart exactly when
each but the last is narrower than its column. -/

/-- The padded fields of a row. -/
def cells (row : AlertRow) : List (ℕ × List Char) :=
  [(13, row.source.toList), (34, row.alertname.toList), (10, row.severity.toList),
   (18, row.job.toList)]

theorem toList_formatRow (row : AlertRow) :
    (formatRow row).toList = Lines.columns ' ' (cells row) row.state.toList := by
  simp [formatRow, ljust, cells, Lines.columns]

theorem AlertRow.Plain.cells {row : AlertRow} (h : row.Plain) :
    ∀ cell ∈ cells row, Lines.IsWord isWhitespace cell.2 := by
  simpa [AlertSink.cells] using
    ⟨h row.source (by simp [fields]), h row.alertname (by simp [fields]),
      h row.severity (by simp [fields]), h row.job (by simp [fields])⟩

theorem AlertRow.Plain.state {row : AlertRow} (h : row.Plain) :
    Lines.IsWord isWhitespace row.state.toList := h row.state (by simp [fields])

theorem narrow_cells_iff (row : AlertRow) :
    (∀ cell ∈ cells row, Lines.narrow cell = true) ↔ row.Fits := by
  simp [cells, Lines.narrow, AlertRow.Fits, String.length_toList]

theorem isWhitespace_blank : isWhitespace ' ' = true := by decide

theorem split_formatRow {row : AlertRow} (hplain : row.Plain) (hfits : row.Fits) :
    split (formatRow row) = row.fields := by
  have hwords := (Lines.words_columns_iff isWhitespace_blank hplain.cells
    hplain.state).mpr ((narrow_cells_iff row).mpr hfits)
  unfold split
  rw [toList_formatRow, hwords]
  simp [cells, AlertRow.fields]

/-- Five words are only there when every cell has a blank after it. -/
theorem fits_of_length_split {row : AlertRow} (hplain : row.Plain)
    (hlength : (split (formatRow row)).length = 5) : row.Fits := by
  have hwords := Lines.length_words_columns isWhitespace_blank (u := []) (by simp)
    hplain.cells hplain.state
  rw [List.nil_append, ← toList_formatRow] at hwords
  unfold split at hlength
  rw [List.length_map, hwords] at hlength
  rw [← narrow_cells_iff, ← List.countP_eq_length]
  exact Nat.succ.inj hlength

/-! ## The lines of the table

The table is cut at its newlines, and a field with a newline is not `Plain`. -/

theorem newline_notMem_formatRow {row : AlertRow} (h : row.Plain) :
    '\n' ∉ (formatRow row).toList := by
  have hnot : ∀ w : List Char, Lines.IsWord isWhitespace w → ∀ c ∈ w, c ≠ '\n' := by
    intro w hw c hc heq
    have hspace := hw.2 c hc
    rw [heq] at hspace
    exact absurd hspace (by decide)
  rw [toList_formatRow]
  intro hmem
  refine Lines.forall_mem_columns (p := fun c => c ≠ '\n') (by decide) ?_
    (hnot _ h.state) '\n' hmem rfl
  intro cell hcell
  exact hnot cell.2 (h.cells cell hcell)

theorem splitLines_render {rows : List AlertRow} (hne : rows ≠ [])
    (hplain : ∀ row ∈ rows, row.Plain) :
    splitLines (render rows) = header :: rule :: (sortBy sortKey rows).map formatRow := by
  have hlines : ∀ line ∈ (header :: rule :: (sortBy sortKey rows).map formatRow).map String.toList,
      '\n' ∉ line := by
    intro line hline
    simp only [List.map_cons, List.mem_cons, List.map_map, List.mem_map, Sorting.mem_sortBy,
      Function.comp_apply] at hline
    rcases hline with rfl | rfl | ⟨row, hrow, rfl⟩
    · decide
    · decide
    · exact newline_notMem_formatRow (hplain row hrow)
  unfold splitLines render
  rw [if_neg hne, String.toList_intercalate]
  have hsplit := List.splitOn_intercalate '\n' hlines (by simp)
  show (List.splitOn '\n' (['\n'].intercalate _)).map String.ofList = _
  rw [hsplit, List.map_map]
  simp [Function.comp_def]

theorem fits_of_readsBack {rows : List AlertRow} (hne : rows ≠ [])
    (hplain : ∀ row ∈ rows, row.Plain) (h : ReadsBack rows) : ∀ row ∈ rows, row.Fits := by
  obtain ⟨sorted, body, -, hlines, hbody⟩ := h
  rw [splitLines_render hne hplain] at hlines
  simp only [List.cons.injEq, true_and] at hlines
  subst hlines
  intro row hrow
  apply fits_of_length_split (hplain row hrow)
  have hmem : split (formatRow row) ∈ ((sortBy sortKey rows).map formatRow).map split :=
    List.mem_map_of_mem (List.mem_map_of_mem ((Sorting.mem_sortBy sortKey).mpr hrow))
  rw [hbody] at hmem
  obtain ⟨_, -, hfields⟩ := List.mem_map.mp hmem
  rw [← hfields]
  rfl

/-- **The table can be read back exactly when every field is shorter than its column.** -/
theorem table_reads_back_iff {rows : List AlertRow} (hne : rows ≠ [])
    (hplain : ∀ row ∈ rows, row.Plain) : ReadsBack rows ↔ ∀ row ∈ rows, row.Fits := by
  constructor
  · exact fits_of_readsBack hne hplain
  · intro hfits
    refine ⟨_, _, stablySorted_sortBy rows, splitLines_render hne hplain, ?_⟩
    rw [List.map_map]
    apply List.map_congr_left
    intro row hmem
    have hrow : row ∈ rows := (Sorting.mem_sortBy sortKey).mp hmem
    rw [Function.comp_apply]
    exact split_formatRow (hplain row hrow) (hfits row hrow)

/-- Two stages of the delivery of one alert. -/
def delivered : List AlertRow :=
  [⟨"notified", "HighLatency", "critical", "sample-app", "firing"⟩,
   ⟨"prometheus", "HighLatency", "critical", "sample-app", "firing"⟩]

theorem table_reads_back_delivered : ReadsBack delivered :=
  (table_reads_back_iff (by simp [delivered]) (by decide)).mpr (by decide)

/-- A job of 18 characters, in a column of 18. -/
def fullColumn : List AlertRow :=
  [⟨"prometheus", "KubePodNotReady", "warning", "kube-state-metrics", "firing"⟩]

theorem full_column_is_not_read_back : ¬ ∀ rows : List AlertRow, rows ≠ [] →
    (∀ row ∈ rows, row.Plain) → ReadsBack rows := by
  intro h
  have hne : fullColumn ≠ [] := by simp [fullColumn]
  have hplain : ∀ row ∈ fullColumn, row.Plain := by decide
  have hfits := fits_of_readsBack hne hplain (h fullColumn hne hplain)
  exact absurd hfits (by decide)

end AlertSink
end ObservabilityStack
