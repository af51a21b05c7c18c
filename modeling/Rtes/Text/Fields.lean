import Rtes.Text.Decimal

/-!
# Lines of fields

A table as text: a line for each row, with tabs between its fields.
-/

namespace Rtes.Text

/-- A row as a line. -/
def fieldsLine (row : List (List Char)) : List Char :=
  ['\t'].intercalate row ++ ['\n']

/-- The lines of a text, and the fields of each.  What comes after the last newline is a
line as well. -/
def readFields (text : List Char) : List (List (List Char)) :=
  (text.splitOn '\n').map fun line => line.splitOn '\t'

/-- A row that can be printed: it has a field, and no field has a tab or a newline. -/
structure PlainRow (row : List (List Char)) : Prop where
  nonempty : row ≠ []
  tab : ∀ field ∈ row, '\t' ∉ field
  newline : ∀ field ∈ row, '\n' ∉ field

theorem PlainRow.not_mem_intercalate {row : List (List Char)} (plain : PlainRow row) :
    '\n' ∉ ['\t'].intercalate row := by
  have newline := plain.newline
  clear plain
  induction row with
  | nil => simp
  | cons field rest ih =>
      cases rest with
      | nil => simpa using newline
      | cons next rest =>
          rw [List.forall_mem_cons] at newline
          rw [List.intercalate_cons_cons, List.mem_append, List.mem_append]
          rintro ((absent | tab) | later)
          · exact newline.1 absent
          · simp at tab
          · exact ih newline.2 later

/-- A table that is printed is read back. -/
theorem readFields_lines {rows : List (List (List Char))} (plain : ∀ row ∈ rows, PlainRow row) :
    readFields (rows.flatMap fieldsLine) = rows ++ [[[]]] := by
  induction rows with
  | nil => rfl
  | cons row rest ih =>
      rw [List.forall_mem_cons] at plain
      obtain ⟨first, others⟩ := plain
      have split : ((row :: rest).flatMap fieldsLine).splitOn '\n' =
          ['\t'].intercalate row :: (rest.flatMap fieldsLine).splitOn '\n' := by
        rw [List.flatMap_cons, fieldsLine, List.append_assoc, List.singleton_append]
        exact splitOn_append_cons first.not_mem_intercalate
      rw [readFields, split, List.map_cons, List.splitOn_intercalate _ first.tab first.nonempty]
      exact congrArg (row :: ·) (ih others)

end Rtes.Text
