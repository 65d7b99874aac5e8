import Mathlib.Data.List.Basic

/-!
# Deltas

A value that changes is reported by deltas: each report contains only what is
not as reported before. Merging the reports in order gives the value reported
last.
-/

set_option autoImplicit false

namespace Library

/-- `news` is what a value adds to the merged reports before it. -/
structure DeltaFormat (Value Delta : Type) where
  empty : Delta
  full : Value → Delta
  merge : Delta → Delta → Delta
  news : Delta → Value → Delta
  empty_merge : ∀ delta, merge empty delta = delta
  merge_news : ∀ reported value, merge reported (news reported value) = full value
  full_ne_empty : ∀ value, full value ≠ empty
  news_eq_empty : ∀ reported value, news reported value = empty ↔ reported = full value

namespace DeltaFormat

variable {Value Delta : Type} (format : DeltaFormat Value Delta)

/-- What is known from reports, later ones replacing earlier ones. -/
def merged (reports : List Delta) : Delta := reports.foldl format.merge format.empty

@[simp] theorem merged_nil : format.merged [] = format.empty := rfl

@[simp] theorem merged_concat (reports : List Delta) (report : Delta) :
    format.merged (reports ++ [report]) = format.merge (format.merged reports) report := by
  simp [merged]

theorem merged_news (reports : List Delta) (value : Value) :
    format.merged (reports ++ [format.news (format.merged reports) value]) =
      format.full value := by
  rw [merged_concat, format.merge_news]

/-- The first report contains the whole value. -/
theorem news_empty (value : Value) : format.news format.empty value = format.full value := by
  rw [← format.empty_merge (format.news format.empty value), format.merge_news]

/-- The reports on one more value: one report, if anything is not as reported before. -/
inductive Continues (reports : List Delta) (value : Value) : List Delta → Prop where
  | same : format.merged reports = format.full value → Continues reports value []
  | report : format.merged reports ≠ format.full value →
      Continues reports value [format.news (format.merged reports) value]

namespace Continues

variable {format} {reports added : List Delta} {value : Value}

/-- All reports together give the value reported last. -/
theorem merged_append (continues : format.Continues reports value added) :
    format.merged (reports ++ added) = format.full value := by
  cases continues with
  | same known => rwa [List.append_nil]
  | report _ => exact format.merged_news reports value

theorem ne_nil_iff (continues : format.Continues reports value added) :
    added ≠ [] ↔ format.merged reports ≠ format.full value := by
  cases continues with
  | same known => simp [known]
  | report differs => simp [differs]

theorem eq_full_of_nil (continues : format.Continues [] value added) :
    added = [format.full value] := by
  cases continues with
  | same known => exact absurd known.symm (format.full_ne_empty value)
  | report _ => rw [merged_nil, news_empty]

end Continues

end DeltaFormat

end Library
