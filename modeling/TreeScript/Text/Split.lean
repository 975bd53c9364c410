/-!
# Splitting texts

A text is split from left to right at every place where a separator starts;
separators do not overlap, and the pieces between them are kept even when they
are empty.  `intercalate_split` says that putting the separator back between
the pieces gives the text again.
-/

namespace TreeScript.Text

open String.Slice.Pattern

/-- The pieces of a text between the places where a separator that is not empty occurs. -/
def split (separator text : String) : List String :=
  (text.split separator).toList.map String.Slice.copy

/-- What is left of a text after a place starts with what is left up to a later place. -/
theorem copy_sliceFrom_eq_append {text : String.Slice} (first second : text.Pos)
    (ordered : first ≤ second) :
    (text.sliceFrom first).copy =
      (text.slice first second ordered).copy ++ (text.sliceFrom second).copy := by
  obtain ⟨before, after, at_first, at_second⟩ :=
    (String.Slice.copy_slice_eq_iff_splits
      (t := (text.slice first second ordered).copy)).1 ⟨ordered, rfl⟩
  rw [(first.splits.eq at_first).2, (second.splits.eq at_second).2]

/-- The pieces found from a place on, with the separator between them, are the text from there. -/
theorem intercalate_pieces {separator : String} [Model.StrictPatternModel separator]
    {text : String.Slice} (first current : text.Pos) (ordered : first ≤ current) :
    Model.split separator first current ordered ≠ [] ∧
      separator.intercalate
          ((Model.split separator first current ordered).map fun piece => piece.toSlice.copy) =
        (text.sliceFrom first).copy := by
  refine Model.split.induct_unfolding separator
    (fun first _ _ (pieces : List text.Subslice) =>
      pieces ≠ [] ∧
        separator.intercalate (pieces.map fun piece => piece.toSlice.copy) =
          (text.sliceFrom first).copy) ?_ ?_ ?_ first current ordered
  · intro first ordered
    refine ⟨by simp, ?_⟩
    rw [copy_sliceFrom_eq_append first text.endPos ordered]
    simp
  · intro first current ordered _ next found _ ⟨some_left, rest⟩
    obtain ⟨forward, matched⟩ :=
      Model.ForwardStringSearcher.isLongestMatchAt_iff.1 (Model.matchAt?_eq_some_iff.1 found)
    refine ⟨by simp, ?_⟩
    rw [List.map_cons, String.intercalate_cons_of_ne_nil (by simpa using some_left), rest,
      copy_sliceFrom_eq_append first current ordered,
      copy_sliceFrom_eq_append current next forward, matched]
    simp [String.append_assoc]
  · intro first current ordered _ _ rest
    exact rest

/-- The pieces of a text, with the separator between them, are the text. -/
theorem intercalate_split {separator : String} (text : String)
    (visible : separator ≠ "") :
    separator.intercalate (split separator text) = text := by
  have := Model.ForwardStringSearcher.strictPatternModel visible
  have := Model.ForwardStringSearcher.lawfulToForwardSearcherModel visible
  have whole := (@intercalate_pieces separator _ text.toSlice _ _
    (String.Slice.Pos.le_refl text.toSlice.startPos)).2
  unfold split
  rw [String.split_eq_split_toSlice, String.Slice.toList_split_eq_splitToSubslice,
    toList_splitToSubslice_eq_modelSplit, List.map_map]
  simpa [Function.comp_def] using whole

end TreeScript.Text
