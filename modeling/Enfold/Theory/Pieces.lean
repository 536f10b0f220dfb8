/-
# Theory.Pieces -- pieces of a split text

What splitting at a separator and splitting into words do to a text that is put together:
the last piece before a seam goes on behind it (`splitChars_append`), separators at the ends
add empty pieces only (`filter_splitChars_dropWhile`, `filter_splitChars_rdropWhile`), and the
first word is what stands before the first white space once the leading white space is gone
(`splitWords_of_word`).
-/
import Enfold.Theory.Text

namespace Enfold.Theory

set_option autoImplicit false

/-! ## Splitting at a separator -/

theorem splitChars_sep (sep : Char) (cs : List Char) :
    splitChars sep (sep :: cs) = [] :: splitChars sep cs := by
  simp [splitChars]

theorem splitChars_ne_nil (sep : Char) (cs : List Char) : splitChars sep cs ≠ [] := by
  cases cs with
  | nil => simp [splitChars]
  | cons c cs =>
      rw [splitChars]
      split
      · simp
      · split <;> simp

/-- The pieces hold characters of the text only. -/
theorem mem_of_mem_splitChars {sep : Char} {cs piece : List Char}
    (mem : piece ∈ splitChars sep cs) : ∀ c ∈ piece, c ∈ cs := by
  induction cs generalizing piece with
  | nil =>
      cases List.mem_singleton.1 mem
      simp
  | cons c cs ih =>
      intro x inPiece
      rw [splitChars] at mem
      split at mem
      · rcases List.mem_cons.1 mem with rfl | mem
        · cases inPiece
        · exact List.mem_cons_of_mem c (ih mem x inPiece)
      · cases pieces : splitChars sep cs with
        | nil => exact absurd pieces (splitChars_ne_nil sep cs)
        | cons first others =>
            rw [pieces] at mem ih
            rcases List.mem_cons.1 mem with rfl | mem
            · rcases List.mem_cons.1 inPiece with rfl | inFirst
              · exact List.mem_cons_self
              · exact List.mem_cons_of_mem c (ih List.mem_cons_self x inFirst)
            · exact List.mem_cons_of_mem c (ih (List.mem_cons_of_mem _ mem) x inPiece)

/-- No piece holds the separator. -/
theorem sep_not_mem_piece {sep : Char} {cs piece : List Char} (mem : piece ∈ splitChars sep cs) :
    sep ∉ piece := by
  induction cs generalizing piece with
  | nil =>
      cases List.mem_singleton.1 mem
      simp
  | cons c cs ih =>
      rw [splitChars] at mem
      split at mem
      · rcases List.mem_cons.1 mem with rfl | mem
        · simp
        · exact ih mem
      · rename_i other
        cases pieces : splitChars sep cs with
        | nil => exact absurd pieces (splitChars_ne_nil sep cs)
        | cons first others =>
            rw [pieces] at mem ih
            rcases List.mem_cons.1 mem with rfl | mem
            · rw [List.mem_cons, not_or]
              exact ⟨Ne.symm other, ih List.mem_cons_self⟩
            · exact ih (List.mem_cons_of_mem _ mem)

/-- A text without the separator is one piece. -/
theorem splitChars_of_not_mem {sep : Char} {cs : List Char} (absent : sep ∉ cs) :
    splitChars sep cs = [cs] := by
  induction cs with
  | nil => rfl
  | cons c cs ih =>
      rw [List.mem_cons, not_or] at absent
      rw [splitChars, if_neg (Ne.symm absent.1), ih absent.2]

/-- A piece ends at the first separator. -/
theorem splitChars_piece {sep : Char} {piece rest : List Char} (absent : sep ∉ piece) :
    splitChars sep (piece ++ sep :: rest) = piece :: splitChars sep rest := by
  induction piece with
  | nil => exact splitChars_sep sep rest
  | cons c piece ih =>
      rw [List.mem_cons, not_or] at absent
      rw [List.cons_append, splitChars, if_neg (Ne.symm absent.1), ih absent.2]

/-- Joined texts without the separator come apart again. -/
theorem splitChars_intercalate {first : String} {texts : List String}
    (absent : ∀ text ∈ first :: texts, ',' ∉ text.toList) :
    splitChars ',' (",".intercalate (first :: texts)).toList =
      (first :: texts).map String.toList := by
  induction texts generalizing first with
  | nil =>
      rw [String.intercalate_singleton, splitChars_of_not_mem (absent first List.mem_cons_self)]
      rfl
  | cons next texts ih =>
      rw [String.intercalate_cons_cons, String.toList_append, String.toList_append,
        List.append_assoc]
      have later := ih fun text mem => absent text (List.mem_cons_of_mem first mem)
      rw [show (",".toList ++ (",".intercalate (next :: texts)).toList) =
        ',' :: (",".intercalate (next :: texts)).toList from rfl,
        splitChars_piece (absent first List.mem_cons_self), later]
      rfl

theorem splitAt_intercalate {first : String} {texts : List String}
    (absent : ∀ text ∈ first :: texts, ',' ∉ text.toList) :
    splitAt ',' (",".intercalate (first :: texts)) = first :: texts := by
  rw [splitAt, splitChars_intercalate absent, List.map_map]
  exact (List.map_congr_left fun text _ => String.ofList_toList).trans (List.map_id _)

/-- The pieces of a text, the last of which goes on with whatever is put behind it. -/
theorem splitChars_append (sep : Char) (front : List Char) :
    ∃ done last, splitChars sep front = done ++ [last] ∧
      ∀ back, splitChars sep (front ++ back) = done ++ splitChars sep (last ++ back) := by
  induction front with
  | nil => exact ⟨[], [], rfl, fun _ => rfl⟩
  | cons c cs ih =>
      obtain ⟨done, last, pieces, further⟩ := ih
      by_cases same : c = sep
      · subst same
        refine ⟨[] :: done, last, ?_, fun back => ?_⟩
        · rw [splitChars_sep, pieces, List.cons_append]
        · rw [List.cons_append, splitChars_sep, further, List.cons_append]
      · cases done with
        | nil =>
            refine ⟨[], c :: last, ?_, fun back => ?_⟩
            · rw [splitChars, if_neg same, pieces]
              rfl
            · rw [List.cons_append, splitChars, if_neg same, further, List.nil_append,
                List.nil_append, List.cons_append, splitChars, if_neg same]
        | cons piece done =>
            refine ⟨(c :: piece) :: done, last, ?_, fun back => ?_⟩
            · rw [splitChars, if_neg same, pieces]
              rfl
            · rw [List.cons_append, splitChars, if_neg same, further]
              rfl

theorem splitChars_concat_sep (sep : Char) (cs : List Char) :
    splitChars sep (cs ++ [sep]) = splitChars sep cs ++ [[]] := by
  induction cs with
  | nil => simp [splitChars]
  | cons c cs ih =>
      by_cases same : c = sep
      · subst same
        rw [List.cons_append, splitChars_sep, splitChars_sep, ih, List.cons_append]
      · rw [List.cons_append, splitChars, splitChars, if_neg same, if_neg same, ih]
        cases pieces : splitChars sep cs with
        | nil => exact absurd pieces (splitChars_ne_nil sep cs)
        | cons piece rest => rfl

section Blank

variable {sep : Char} {keep : List Char → Bool}

/-- Separators in front add empty pieces. -/
theorem filter_splitChars_dropWhile (blank : keep [] = false) (cs : List Char) :
    (splitChars sep (cs.dropWhile (· = sep))).filter keep = (splitChars sep cs).filter keep := by
  induction cs with
  | nil => rfl
  | cons c cs ih =>
      by_cases same : c = sep
      · subst same
        rw [List.dropWhile_cons_of_pos (by simp), ih, splitChars_sep,
          List.filter_cons_of_neg (by simp [blank])]
      · rw [List.dropWhile_cons_of_neg (by simpa using same)]

/-- Separators behind add empty pieces. -/
theorem filter_splitChars_rdropWhile (blank : keep [] = false) (cs : List Char) :
    (splitChars sep (cs.rdropWhile (· = sep))).filter keep = (splitChars sep cs).filter keep := by
  induction cs using List.reverseRecOn with
  | nil => rfl
  | append_singleton cs c ih =>
      by_cases same : c = sep
      · subst same
        rw [List.rdropWhile_concat_pos _ _ _ (by simp), ih, splitChars_concat_sep,
          List.filter_append, List.filter_cons_of_neg (by simp [blank]), List.filter_nil,
          List.append_nil]
      · rw [List.rdropWhile_concat_neg _ _ _ (by simpa using same)]

end Blank

/-! ## Words -/

/-- The first word of a text; empty when the text has none. -/
def firstWord (cs : List Char) : List Char :=
  (cs.dropWhile isSpace).takeWhile fun c => !isSpace c

/-- A word that has begun goes on to the next white space. -/
theorem splitWords_go (word cs : List Char) (begun : word ≠ []) :
    splitWords.go word cs =
      (word.reverse ++ cs.takeWhile fun c => !isSpace c) ::
        splitWords.go [] (cs.dropWhile fun c => !isSpace c) := by
  have notEmpty : word.isEmpty = false := by simpa using begun
  induction cs generalizing word with
  | nil => simp [splitWords.go, notEmpty]
  | cons c cs ih =>
      by_cases space : isSpace c = true
      · simp [splitWords.go, space, notEmpty]
      · rw [splitWords.go, if_neg space, ih _ (List.cons_ne_nil c word) rfl,
          List.takeWhile_cons_of_pos (by simpa using space),
          List.dropWhile_cons_of_pos (by simpa using space), List.reverse_cons, List.append_assoc]
        rfl

/-- White space before the first word is skipped. -/
theorem splitWords_skip (cs : List Char) :
    splitWords.go [] cs = splitWords.go [] (cs.dropWhile isSpace) := by
  induction cs with
  | nil => rfl
  | cons c cs ih =>
      by_cases space : isSpace c = true
      · rw [List.dropWhile_cons_of_pos space, ← ih]
        simp [splitWords.go, space]
      · rw [List.dropWhile_cons_of_neg space]

theorem splitWords_of_blank {cs : List Char} (none : firstWord cs = []) :
    splitWords (String.ofList cs) = [] := by
  have blank : cs.dropWhile isSpace = [] := by
    cases rest : cs.dropWhile isSpace with
    | nil => rfl
    | cons c tail =>
        have solid : ¬ isSpace c = true := by
          simpa [rest] using List.head_dropWhile_not isSpace (l := cs) (by simp [rest])
        rw [firstWord, rest, List.takeWhile_cons_of_pos (by simpa using solid)] at none
        cases none
  rw [splitWords, String.toList_ofList, splitWords_skip, blank]
  rfl

theorem splitWords_of_word {cs : List Char} (some : firstWord cs ≠ []) :
    ∃ rest, splitWords (String.ofList cs) = String.ofList (firstWord cs) :: rest := by
  unfold firstWord at some ⊢
  rw [splitWords, String.toList_ofList, splitWords_skip]
  cases left : cs.dropWhile isSpace with
  | nil => exact absurd (by rw [left]; rfl) some
  | cons c tail =>
      have solid : ¬ isSpace c = true := by
        simpa [left] using List.head_dropWhile_not isSpace (l := cs) (by simp [left])
      rw [splitWords.go, if_neg solid, splitWords_go [c] tail (List.cons_ne_nil c []),
        List.takeWhile_cons_of_pos (by simpa using solid)]
      exact ⟨_, rfl⟩

end Enfold.Theory
