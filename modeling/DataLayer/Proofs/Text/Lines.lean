import DataLayer.Text.Lines

/- The lines of a text. None of them holds a line feed, a line feed parts the lines before it from
   those behind it, and a line may lose a carriage return at its end. -/
namespace DataLayer.Text

theorem splitLines_cons {c : Char} (notFeed : c ≠ '\n') {s line : List Char}
    {lines : List (List Char)} (rest : splitLines s = line :: lines) :
    splitLines (c :: s) = (c :: line) :: lines := by
  rw [splitLines, if_neg notFeed, rest]

theorem splitLines_append_feed (s rest : List Char) :
    splitLines (s ++ '\n' :: rest) = splitLines s ++ splitLines rest := by
  induction s with
  | nil => rfl
  | cons c s ih =>
    by_cases isFeed : c = '\n'
    · simp [splitLines, isFeed, ih]
    · obtain ⟨line, lines, split⟩ := List.exists_cons_of_ne_nil (splitLines_ne_nil s)
      rw [split, List.cons_append] at ih
      rw [List.cons_append, splitLines_cons isFeed ih, splitLines_cons isFeed split,
        List.cons_append]

theorem splitLines_of_not_mem {s : List Char} (oneLine : '\n' ∉ s) : splitLines s = [s] := by
  induction s with
  | nil => rfl
  | cons c s ih =>
    obtain ⟨notFeed, oneLine⟩ := List.ne_and_not_mem_of_not_mem_cons oneLine
    exact splitLines_cons (Ne.symm notFeed) (ih oneLine)

theorem feed_not_mem_of_mem_splitLines {s line : List Char} (mem : line ∈ splitLines s) :
    '\n' ∉ line := by
  induction s generalizing line with
  | nil =>
    cases List.mem_singleton.mp mem
    exact List.not_mem_nil
  | cons c s ih =>
    obtain ⟨first, lines, split⟩ := List.exists_cons_of_ne_nil (splitLines_ne_nil s)
    by_cases isFeed : c = '\n'
    · rw [splitLines, if_pos isFeed] at mem
      rcases List.mem_cons.mp mem with rfl | mem
      · exact List.not_mem_nil
      · exact ih mem
    · rw [splitLines_cons isFeed split] at mem
      rw [split] at ih
      rcases List.mem_cons.mp mem with rfl | mem
      · exact List.not_mem_cons_of_ne_of_not_mem (Ne.symm isFeed) (ih List.mem_cons_self)
      · exact ih (List.mem_cons_of_mem _ mem)

theorem length_splitLines (s : List Char) : (splitLines s).length = s.count '\n' + 1 := by
  induction s with
  | nil => rfl
  | cons c s ih =>
    by_cases isFeed : c = '\n'
    · rw [splitLines, if_pos isFeed, List.length_cons, ih, isFeed, List.count_cons_self]
    · obtain ⟨line, lines, split⟩ := List.exists_cons_of_ne_nil (splitLines_ne_nil s)
      rw [splitLines_cons isFeed split, List.count_cons_of_ne isFeed, ← ih, split,
        List.length_cons, List.length_cons]

theorem subset_of_mem_splitLines {s line : List Char} (among : line ∈ splitLines s) : line ⊆ s := by
  induction s generalizing line with
  | nil =>
    cases List.mem_singleton.mp among
    exact List.Subset.refl _
  | cons c s ih =>
    obtain ⟨first, lines, split⟩ := List.exists_cons_of_ne_nil (splitLines_ne_nil s)
    by_cases isFeed : c = '\n'
    · rw [splitLines, if_pos isFeed] at among
      rcases List.mem_cons.mp among with rfl | among
      · exact List.nil_subset _
      · exact List.subset_cons_of_subset c (ih among)
    · rw [splitLines_cons isFeed split] at among
      rw [split] at ih
      rcases List.mem_cons.mp among with rfl | among
      · exact List.cons_subset_cons c (ih List.mem_cons_self)
      · exact List.subset_cons_of_subset c (ih (List.mem_cons_of_mem _ among))

theorem dropReturn_subset (line : List Char) : dropReturn line ⊆ line := by
  unfold dropReturn
  split
  · exact List.dropLast_subset line
  · exact List.Subset.refl line

theorem dropReturn_of_not_mem {line : List Char} (free : '\r' ∉ line) : dropReturn line = line :=
  if_neg fun last => free (List.mem_of_getLast? last)

theorem dropReturn_cases (line : List Char) :
    line = dropReturn line ++ ['\r'] ∨ line = dropReturn line ∧ line.getLast? ≠ some '\r' := by
  unfold dropReturn
  split
  · rename_i last
    obtain ⟨rest, rfl⟩ := List.getLast?_eq_some_iff.mp last
    exact .inl (by rw [List.dropLast_concat])
  · rename_i other
    exact .inr ⟨rfl, other⟩

end DataLayer.Text
