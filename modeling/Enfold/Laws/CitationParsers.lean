/-
# Laws.CitationParsers -- two readings of the citations in an insight's tags

An erasure reads the first word after the first `source_facts:` of the tags, between its
commas.  Supersession reads the digits and commas directly after a `source_facts:`.  On the tags
that reflection writes the two are the same text.  On others the erasure may fail where the
pattern reads nothing, and the two may read different facts.

`ReadAlike` says what the tags have to look like for both to read the same facts, and
`citation_parsers_agree_iff` that this is exact, and what it means for the insights that an
erasure and a supersession end.  The tags that reflection writes do (`readAlike_insightTags`), and
where all do, superseding a fact ends just the insights that an erasure would
(`invalidate_ends_citing`).
-/
import Enfold.Theory.Pieces
import Enfold.Model.Reflection
import Enfold.Laws.FactSteps

namespace Enfold.Laws

open Enfold.Theory Enfold.Model

set_option autoImplicit false

/-! ## Numbers between commas -/

/-- A piece that both parsers take for a number, and its value. -/
def Numeral (piece : List Char) (n : Nat) : Prop :=
  isDigitText (String.ofList piece) = true ∧ intOf (String.ofList piece) = .ok n

def Written (pieces : List (List Char)) (n : Nat) : Prop := ∃ piece ∈ pieces, Numeral piece n

/-- `int` accepts every piece that is made of digits. -/
def Legible (pieces : List (List Char)) : Prop :=
  ∀ piece ∈ pieces, isDigitText (String.ofList piece) = true →
    ∃ n, intOf (String.ofList piece) = .ok n

theorem written_append {done pieces : List (List Char)} {n : Nat} :
    Written (done ++ pieces) n ↔ Written done n ∨ Written pieces n := by
  simp only [Written, List.mem_append, or_and_right, exists_or]

theorem written_singleton {piece : List Char} {n : Nat} : Written [piece] n ↔ Numeral piece n := by
  simp [Written]

/-- The numbers of the pieces, as both parsers read them. -/
def readPieces (pieces : List (List Char)) : Py (List Nat) :=
  ((pieces.map String.ofList).filter isDigitText).mapM intOf

theorem mem_readPieces {pieces : List (List Char)} {numbers : List Nat}
    (read : readPieces pieces = .ok numbers) {n : Nat} : n ∈ numbers ↔ Written pieces n := by
  constructor
  · intro mem
    obtain ⟨text, listed, value⟩ := mem_of_mapM_eq_ok read n mem
    obtain ⟨listed, digits⟩ := List.mem_filter.1 listed
    obtain ⟨piece, mem, rfl⟩ := List.mem_map.1 listed
    exact ⟨piece, mem, digits, value⟩
  · rintro ⟨piece, mem, digits, value⟩
    have listed := List.mem_filter.2 ⟨List.mem_map_of_mem (f := String.ofList) mem, digits⟩
    obtain ⟨i, place⟩ := List.mem_iff_getElem?.1 listed
    obtain ⟨n', there, same⟩ := forall₂_getElem? (mapM_eq_ok.1 read) place
    rw [value] at same
    cases same
    exact List.mem_of_getElem? there

theorem legible_iff {pieces : List (List Char)} :
    Legible pieces ↔ ∃ numbers, readPieces pieces = .ok numbers := by
  constructor
  · intro legible
    suffices succeeds : ∀ texts : List String, (∀ text ∈ texts, ∃ n, intOf text = .ok n) →
        ∃ numbers, texts.mapM intOf = .ok numbers by
      refine succeeds _ fun text mem => ?_
      obtain ⟨listed, digits⟩ := List.mem_filter.1 mem
      obtain ⟨piece, here, rfl⟩ := List.mem_map.1 listed
      exact legible piece here digits
    intro texts each
    induction texts with
    | nil => exact ⟨[], rfl⟩
    | cons text texts ih =>
        obtain ⟨n, here⟩ := each text List.mem_cons_self
        obtain ⟨rest, others⟩ := ih fun text mem => each text (List.mem_cons_of_mem _ mem)
        refine ⟨n :: rest, ?_⟩
        rw [List.mapM_cons, here, ok_bind, others]
        rfl
  · rintro ⟨numbers, read⟩ piece mem digits
    have listed := List.mem_filter.2 ⟨List.mem_map_of_mem (f := String.ofList) mem, digits⟩
    obtain ⟨i, place⟩ := List.mem_iff_getElem?.1 listed
    obtain ⟨n, -, value⟩ := forall₂_getElem? (mapM_eq_ok.1 read) place
    exact ⟨n, value⟩

/-! ## What the parsers read -/

/-- Commas around the word make no difference. -/
theorem readPieces_stripped (word : List Char) :
    ((splitAt ',' (stripOf ',' (String.ofList word))).filter isDigitText).mapM intOf =
      readPieces (splitChars ',' word) := by
  have blank : (isDigitText ∘ String.ofList) [] = false := by decide
  rw [readPieces, splitAt, stripOf, String.toList_ofList, String.toList_ofList, List.filter_map,
    List.filter_map, filter_splitChars_rdropWhile blank, filter_splitChars_dropWhile blank]

theorem citedFacts_of_absent {tags : String}
    (absent : afterMarker citationMarker tags.toList = none) : citedFacts tags = .ok [] := by
  unfold citedFacts
  rw [show "source_facts:".toList = citationMarker from rfl, absent]

theorem citedFacts_of_blank {tags : String} {rest : List Char}
    (marked : afterMarker citationMarker tags.toList = some rest) (blank : firstWord rest = []) :
    citedFacts tags = .error ⟨.indexError, "list index out of range"⟩ := by
  unfold citedFacts
  rw [show "source_facts:".toList = citationMarker from rfl, marked]
  simp only [splitWords_of_blank blank]

theorem citedFacts_of_word {tags : String} {rest : List Char}
    (marked : afterMarker citationMarker tags.toList = some rest) (word : firstWord rest ≠ []) :
    citedFacts tags = readPieces (splitChars ',' (firstWord rest)) := by
  obtain ⟨others, words⟩ := splitWords_of_word word
  unfold citedFacts
  rw [show "source_facts:".toList = citationMarker from rfl, marked]
  simp only [words]
  exact readPieces_stripped (firstWord rest)

/-- The digits and commas that the pattern takes; none when it matches nowhere. -/
def patternGroup (tags : String) : List Char := (citationGroup tags.toList).getD []

theorem isCitationChar_solid {c : Char} (citation : isCitationChar c = true) :
    isSpace c = false := by
  have range : 48 ≤ c.toNat ∧ c.toNat ≤ 57 ∨ c.toNat = 44 := by
    rw [isCitationChar, Bool.or_eq_true] at citation
    rcases citation with digit | comma
    · left
      simpa [isAsciiDigit, Char.le_def, UInt32.le_iff_toNat_le] using digit
    · right
      rw [beq_iff_eq.1 comma]
      rfl
  simp only [isSpace, inRanges, List.any_cons, List.any_nil, Bool.or_eq_false_iff,
    Bool.and_eq_false_iff, decide_eq_false_iff_not, eq_self, and_true]
  omega

theorem citationGroup_chars {cs group : List Char} (found : citationGroup cs = some group) :
    group ≠ [] ∧ ∀ c ∈ group, isCitationChar c = true := by
  induction cs with
  | nil => cases found
  | cons c cs ih =>
      rw [citationGroup] at found
      split at found
      · rename_i direct
        cases found
        exact ⟨direct.2, fun c mem => List.mem_takeWhile_imp mem⟩
      · exact ih found

theorem citedIds_eq (tags : String) :
    citedIds tags = readPieces (splitChars ',' (patternGroup tags)) := by
  unfold citedIds patternGroup
  cases found : citationGroup tags.toList with
  | none => rfl
  | some group =>
      have stripped : ((splitAt ',' (String.ofList group)).filter fun t => isDigitText (strip t)) =
          (splitAt ',' (String.ofList group)).filter isDigitText := by
        refine List.filter_congr fun t mem => ?_
        obtain ⟨piece, listed, rfl⟩ := List.mem_map.1 mem
        rw [String.toList_ofList] at listed
        rw [strip_of_solid]
        intro c inPiece
        rw [String.toList_ofList] at inPiece
        exact isCitationChar_solid
          ((citationGroup_chars found).2 c (mem_of_mem_splitChars listed c inPiece))
      simp only [stripped, Option.getD_some]
      rw [splitAt, String.toList_ofList, readPieces]

/-! ## Where the two meet -/

theorem citationGroup_of_absent {cs : List Char} (absent : afterMarker citationMarker cs = none) :
    citationGroup cs = none := by
  induction cs with
  | nil => rfl
  | cons c cs ih =>
      rw [afterMarker] at absent
      split at absent
      · cases absent
      · rename_i apart
        rw [citationGroup, if_neg fun direct => apart direct.1]
        exact ih absent

/-- Digits and commas directly after the first marker are what the pattern takes. -/
theorem citationGroup_of_direct {cs rest : List Char}
    (marked : afterMarker citationMarker cs = some rest)
    (direct : rest.takeWhile isCitationChar ≠ []) :
    citationGroup cs = some (rest.takeWhile isCitationChar) := by
  induction cs with
  | nil => cases marked
  | cons c cs ih =>
      rw [afterMarker] at marked
      split at marked
      · rename_i here
        cases marked
        rw [citationGroup, if_pos ⟨here, direct⟩]
      · rename_i apart
        rw [citationGroup, if_neg fun direct => apart direct.1]
        exact ih marked

/-- A word that begins with digits and commas goes on behind them. -/
theorem firstWord_of_direct {rest : List Char} (direct : rest.takeWhile isCitationChar ≠ []) :
    ∃ tail, firstWord rest = rest.takeWhile isCitationChar ++ tail := by
  have solid : ∀ c ∈ rest.takeWhile isCitationChar, (!isSpace c) = true := by
    intro c mem
    rw [isCitationChar_solid (List.mem_takeWhile_imp mem)]
    rfl
  have begins : rest.dropWhile isSpace = rest := by
    cases rest with
    | nil => rfl
    | cons c cs =>
        have citation : isCitationChar c = true := by
          by_contra other
          exact direct (List.takeWhile_cons_of_neg other)
        rw [List.dropWhile_cons_of_neg (by simp [isCitationChar_solid citation])]
  refine ⟨(rest.dropWhile isCitationChar).takeWhile fun c => !isSpace c, ?_⟩
  calc firstWord rest
      = rest.takeWhile fun c => !isSpace c := by rw [firstWord, begins]
    _ = (rest.takeWhile isCitationChar ++ rest.dropWhile isCitationChar).takeWhile
          fun c => !isSpace c := by rw [List.takeWhile_append_dropWhile]
    _ = _ := List.takeWhile_append_of_pos solid

/-! ## Agreement -/

/-- Both parsers read the tags, and they read the same facts. -/
def ParsersAgree (tags : String) : Prop :=
  ∃ cited ids, citedFacts tags = .ok cited ∧ citedIds tags = .ok ids ∧ ∀ n, n ∈ cited ↔ n ∈ ids

/-- The piece that digits and commas end in. -/
def openPiece (group : List Char) : List Char := (splitChars ',' group).getLastD []

/-- What the word holds after the digits and commas makes no difference: the number that is cut
off there is also written elsewhere, and so is every number that is added. -/
structure Harmless (group tail : List Char) : Prop where
  kept : ∀ n, Numeral (openPiece group) n →
    Written (splitChars ',' group).dropLast n ∨ Written (splitChars ',' (openPiece group ++ tail)) n
  added : ∀ n, Written (splitChars ',' (openPiece group ++ tail)) n →
    Written (splitChars ',' group).dropLast n ∨ Numeral (openPiece group) n

/-- What the tags look like on which the two parsers agree.  There is no marker; or a word
follows the first one, `int` accepts the digits in it, and its numbers are those of the digits
and commas that the pattern takes.  When these begin the word, that depends on its rest only. -/
def ReadAlike (tags : String) : Prop :=
  match afterMarker citationMarker tags.toList with
  | none => True
  | some rest =>
      let word := firstWord rest
      let group := rest.takeWhile isCitationChar
      word ≠ [] ∧ Legible (splitChars ',' word) ∧
        if group = [] then
          Legible (splitChars ',' (patternGroup tags)) ∧
            ∀ n, Written (splitChars ',' word) n ↔ Written (splitChars ',' (patternGroup tags)) n
        else Legible [openPiece group] ∧ Harmless group (word.drop group.length)

/-- The numbers are the same on both sides of a seam exactly when the rest is harmless. -/
theorem harmless_iff {group tail : List Char} :
    Harmless group tail ↔
      ∀ n, Written (splitChars ',' (group ++ tail)) n ↔ Written (splitChars ',' group) n := by
  obtain ⟨done, last, pieces, further⟩ := splitChars_append ',' group
  have ended : openPiece group = last := by rw [openPiece, pieces, List.getLastD_concat]
  have before : (splitChars ',' group).dropLast = done := by rw [pieces, List.dropLast_concat]
  rw [further, pieces]
  simp only [written_append, written_singleton]
  constructor
  · intro harmless n
    rw [← ended, ← before]
    constructor
    · rintro (early | late)
      · exact .inl early
      · exact harmless.added n late
    · rintro (early | cut)
      · exact .inl early
      · exact harmless.kept n cut
  · intro same
    refine ⟨fun n cut => ?_, fun n late => ?_⟩
    · rw [ended, before] at *
      exact (same n).2 (.inr cut)
    · rw [ended, before] at *
      exact (same n).1 (.inr late)

/-- Between the seams the pieces are pieces of the whole text. -/
theorem legible_seam {group tail : List Char} (whole : Legible (splitChars ',' (group ++ tail))) :
    Legible (splitChars ',' group) ↔ Legible [openPiece group] := by
  obtain ⟨done, last, pieces, further⟩ := splitChars_append ',' group
  rw [openPiece, pieces, List.getLastD_concat]
  rw [further] at whole
  constructor
  · intro legible piece mem
    exact legible piece (List.mem_append_right done mem)
  · intro legible piece mem
    rcases List.mem_append.1 mem with early | late
    · exact whole piece (List.mem_append_left _ early)
    · exact legible piece late

theorem parsers_agree_of_read {tags : String} {pieces : List (List Char)}
    (read : citedFacts tags = readPieces pieces) :
    ParsersAgree tags ↔ Legible pieces ∧ Legible (splitChars ',' (patternGroup tags)) ∧
      ∀ n, Written pieces n ↔ Written (splitChars ',' (patternGroup tags)) n := by
  rw [ParsersAgree, read, citedIds_eq, legible_iff, legible_iff]
  constructor
  · rintro ⟨cited, ids, left, right, same⟩
    refine ⟨⟨cited, left⟩, ⟨ids, right⟩, fun n => ?_⟩
    rw [← mem_readPieces left, ← mem_readPieces right]
    exact same n
  · rintro ⟨⟨cited, left⟩, ⟨ids, right⟩, same⟩
    refine ⟨cited, ids, left, right, fun n => ?_⟩
    rw [mem_readPieces left, mem_readPieces right]
    exact same n

theorem parsers_agree_iff (tags : String) : ParsersAgree tags ↔ ReadAlike tags := by
  unfold ReadAlike
  cases marked : afterMarker citationMarker tags.toList with
  | none =>
      refine iff_of_true ⟨[], [], citedFacts_of_absent marked, ?_, fun n => Iff.rfl⟩ trivial
      rw [citedIds, citationGroup_of_absent marked]
  | some rest =>
      dsimp only
      by_cases blank : firstWord rest = []
      · refine iff_of_false ?_ fun alike => alike.1 blank
        rintro ⟨cited, ids, read, -⟩
        rw [citedFacts_of_blank marked blank] at read
        cases read
      rw [parsers_agree_of_read (citedFacts_of_word marked blank)]
      by_cases apart : rest.takeWhile isCitationChar = []
      · rw [if_pos apart]
        exact ⟨fun ⟨word, group, same⟩ => ⟨blank, word, group, same⟩,
          fun ⟨_, word, group, same⟩ => ⟨word, group, same⟩⟩
      · rw [if_neg apart]
        obtain ⟨tail, whole⟩ := firstWord_of_direct apart
        have group : patternGroup tags = rest.takeWhile isCitationChar := by
          rw [patternGroup, citationGroup_of_direct marked apart, Option.getD_some]
        have rest' : (firstWord rest).drop (rest.takeWhile isCitationChar).length = tail := by
          rw [whole, List.drop_left]
        rw [group, rest', harmless_iff, ← whole]
        constructor
        · rintro ⟨word, read, same⟩
          exact ⟨blank, word, (legible_seam (whole ▸ word)).1 read, same⟩
        · rintro ⟨-, word, read, same⟩
          exact ⟨word, (legible_seam (whole ▸ word)).2 read, same⟩

/-! ## The tags that reflection writes -/

/-- `int` reads an id back as it was printed. -/
theorem intOf_natText {n : Nat} (bounded : n < 2 ^ 63) : intOf (natText n) = .ok n := by
  have short : leadingDigits (natText n) ≤ 19 :=
    (leadingDigits_natText n).trans
      ((Nat.length_toDigits_le_iff (by decide) (by decide)).2 (bounded.trans (by decide)))
  rw [intOf, if_neg (Nat.not_lt.2 (short.trans (by decide))), readDigits_natText]

theorem isCitationChar_natText {n : Nat} {c : Char} (mem : c ∈ (natText n).toList) :
    isCitationChar c = true := by
  rw [toList_natText] at mem
  have digit := Nat.isDigit_of_mem_toDigits (by decide) (by decide) mem
  rw [isCitationChar, Bool.or_eq_true]
  left
  simpa [isAsciiDigit, Char.isDigit, Char.le_def] using digit

section Written

variable {first : Nat} {others : List Nat}

theorem isCitationChar_of_ids {c : Char}
    (mem : c ∈ (",".intercalate ((first :: others).map natText)).toList) :
    isCitationChar c = true := by
  induction others generalizing first with
  | nil =>
      rw [List.map_singleton, String.intercalate_singleton] at mem
      exact isCitationChar_natText mem
  | cons next others ih =>
      rw [List.map_cons, List.map_cons, String.intercalate_cons_cons, String.toList_append,
        String.toList_append, List.mem_append, List.mem_append] at mem
      rcases mem with (here | comma) | later
      · exact isCitationChar_natText here
      · rw [List.mem_singleton.1 comma]
        rfl
      · exact ih later

theorem pieces_of_ids :
    splitChars ',' (",".intercalate ((first :: others).map natText)).toList =
      ((first :: others).map natText).map String.toList := by
  refine splitChars_intercalate fun text mem => ?_
  obtain ⟨n, -, rfl⟩ := List.mem_map.1 (show text ∈ (first :: others).map natText from mem)
  intro comma
  rw [toList_natText] at comma
  exact absurd (Nat.isDigit_of_mem_toDigits (by decide) (by decide) comma) (by decide)

theorem readPieces_ids (bounded : ∀ id ∈ first :: others, id < 2 ^ 63) :
    readPieces (splitChars ',' (",".intercalate ((first :: others).map natText)).toList) =
      .ok (first :: others) := by
  have texts : (((first :: others).map natText).map String.toList).map String.ofList =
      (first :: others).map natText := by
    rw [List.map_map]
    exact (List.map_congr_left fun text _ => String.ofList_toList).trans (List.map_id _)
  have digits : ((first :: others).map natText).filter isDigitText =
      (first :: others).map natText := by
    refine List.filter_eq_self.2 fun text mem => ?_
    obtain ⟨n, -, rfl⟩ := List.mem_map.1 mem
    exact isDigitText_natText n
  rw [pieces_of_ids, readPieces, texts, digits, mapM_eq_ok]
  exact List.forall₂_map_left_iff.2 (List.forall₂_same.2 fun n mem => intOf_natText (bounded n mem))

theorem marked_insightTags :
    afterMarker citationMarker (insightTags (first :: others)).toList =
      some (",".intercalate ((first :: others).map natText)).toList := by
  rw [insightTags, String.toList_append]
  rfl

/-- Both parsers read the ids. -/
theorem written_insightTags (bounded : ∀ id ∈ first :: others, id < 2 ^ 63) :
    citedFacts (insightTags (first :: others)) = .ok (first :: others) ∧
      citedIds (insightTags (first :: others)) = .ok (first :: others) := by
  have chars := fun c mem => @isCitationChar_of_ids first others c mem
  have marked := @marked_insightTags first others
  have read := readPieces_ids bounded
  have pieces := @pieces_of_ids first others
  generalize (",".intercalate ((first :: others).map natText)).toList = cs at chars marked read pieces
  have filled : cs ≠ [] := by
    rintro rfl
    have blank : [] = (natText first).toList := (List.cons.inj pieces).1
    rw [toList_natText] at blank
    exact Nat.toDigits_ne_nil blank.symm
  have group : cs.takeWhile isCitationChar = cs := List.takeWhile_eq_self_iff.2 chars
  have direct : cs.takeWhile isCitationChar ≠ [] := by rwa [group]
  have word : firstWord cs = cs := by
    obtain ⟨tail, whole⟩ := firstWord_of_direct direct
    rw [group] at whole
    have short : (firstWord cs).length ≤ cs.length :=
      ((List.takeWhile_sublist _).trans (List.dropWhile_sublist _)).length_le
    rw [whole, List.length_append] at short
    rw [whole, List.length_eq_zero_iff.1 (by omega : tail.length = 0), List.append_nil]
  refine ⟨?_, ?_⟩
  · rw [citedFacts_of_word marked (by rwa [word]), word, read]
  · rw [citedIds_eq, patternGroup, citationGroup_of_direct marked direct, Option.getD_some, group,
      read]

end Written

/-- The tags of an insight that cites something read alike. -/
theorem readAlike_insightTags {sourceIds : List Nat} (cites : sourceIds ≠ [])
    (bounded : ∀ id ∈ sourceIds, id < 2 ^ 63) : ReadAlike (insightTags sourceIds) := by
  obtain ⟨first, others, rfl⟩ := List.exists_cons_of_ne_nil cites
  obtain ⟨erased, superseded⟩ := written_insightTags bounded
  exact (parsers_agree_iff _).1 ⟨_, _, erased, superseded, fun _ => Iff.rfl⟩

/-! ## The insights that go -/

/-- An insight that may be ended. -/
def ActiveInsight (r : FactRow) : Prop := r.category = "insight" ∧ r.invalidAt = none

instance (r : FactRow) : Decidable (ActiveInsight r) := inferInstanceAs (Decidable (_ ∧ _))

/-- Where the parsers agree on every insight, both select the same ones. -/
theorem same_selection {rows : List FactRow} (agree : ∀ r ∈ rows, ParsersAgree r.tags) :
    ∃ left right,
      rows.mapM (fun r => do return (r.factId, ← citedFacts r.tags)) = Except.ok left ∧
      rows.mapM (fun r => do return (r.factId, ← citedIds r.tags)) = Except.ok right ∧
      ∀ factId : Nat, (left.filter fun entry => factId ∈ entry.2).map Prod.fst =
        (right.filter fun entry => factId ∈ entry.2).map Prod.fst := by
  induction rows with
  | nil => exact ⟨[], [], rfl, rfl, fun _ => rfl⟩
  | cons r rows ih =>
      obtain ⟨cited, ids, parsed, found, same⟩ := agree r List.mem_cons_self
      obtain ⟨left, right, erased, stale, alike⟩ :=
        ih fun r' mem => agree r' (List.mem_cons_of_mem r mem)
      refine ⟨(r.factId, cited) :: left, (r.factId, ids) :: right, ?_, ?_, fun factId => ?_⟩
      · rw [List.mapM_cons, parsed, erased]
        rfl
      · rw [List.mapM_cons, found, stale]
        rfl
      · by_cases cites : factId ∈ cited
        · rw [List.filter_cons_of_pos (by simpa using cites),
            List.filter_cons_of_pos (by simpa using (same factId).1 cites), List.map_cons,
            List.map_cons, alike]
        · have stays : factId ∉ ids := fun mem => cites ((same factId).2 mem)
          rw [List.filter_cons_of_neg (by simpa using cites),
            List.filter_cons_of_neg (by simpa using stays), alike]

/-- Where the tags of every active insight read alike, both parsers select the same insights. -/
theorem same_insights {facts : Facts} {factId : Nat}
    (alike : ∀ r ∈ facts, ActiveInsight r → ReadAlike r.tags) :
    ∃ insights, citingInsights facts factId = .ok insights ∧
      staleInsights facts factId = .ok insights := by
  have agree : ∀ r ∈ facts.table.select fun r => r.category = "insight" ∧ r.invalidAt = none,
      ParsersAgree r.tags := by
    intro r selected
    obtain ⟨mem, active⟩ := Table.mem_select.1 selected
    exact (parsers_agree_iff r.tags).2 (alike r mem active)
  obtain ⟨left, right, erased, stale, same⟩ := same_selection agree
  refine ⟨(left.filter fun entry => factId ∈ entry.2).map Prod.fst, ?_, ?_⟩
  · rw [citingInsights, erased]
    rfl
  · rw [staleInsights, stale, same]
    rfl

/-- Superseding a fact ends the insights that erasing it would end, and changes nothing else. -/
theorem invalidate_ends_citing {s s' : Store} {factId count : Nat} {now : String}
    (alike : ∀ r ∈ s.facts, ActiveInsight r → ReadAlike r.tags)
    (done : invalidateInsightsCiting s factId now = .ok (s', count)) :
    ∃ insights, citingInsights s.facts factId = .ok insights ∧ count = insights.length ∧
      s' = { s with facts := s'.facts } ∧
      FactMap s.facts s'.facts fun r =>
        if r.factId ∈ insights then { r with invalidAt := some now } else r := by
  obtain ⟨insights, cited, stale⟩ := @same_insights s.facts factId alike
  refine ⟨insights, cited, ?_⟩
  rw [invalidateInsightsCiting, stale, ok_bind] at done
  split at done
  · rename_i quiet
    cases pure_eq_ok.1 done
    rw [List.isEmpty_iff.1 quiet]
    exact ⟨rfl, rfl, (Table.Maps.refl _).congr fun r _ => (if_neg List.not_mem_nil).symm⟩
  · obtain ⟨s₁, updated, done⟩ := bind_eq_ok.1 done
    cases pure_eq_ok.1 done
    obtain ⟨frame, -, map⟩ := updateFacts_map updated
    exact ⟨rfl, frame, map⟩

/-- The parsers agree on the tags exactly when these read alike.  Where the tags of every active
insight do, erasing a fact ends the insights that superseding it would end. -/
theorem citation_parsers_agree_iff (tags : String) (facts : Facts) (factId : Nat) :
    (ParsersAgree tags ↔ ReadAlike tags) ∧
      ((∀ r ∈ facts, ActiveInsight r → ReadAlike r.tags) →
        ∃ insights, citingInsights facts factId = .ok insights ∧
          staleInsights facts factId = .ok insights) :=
  ⟨parsers_agree_iff tags, same_insights⟩

/-- A marker with nothing behind it: the pattern reads no fact, and every erasure fails. -/
theorem bare_marker_raises :
    citedFacts "source_facts:" = .error ⟨.indexError, "list index out of range"⟩ ∧
      citedIds "source_facts:" = .ok [] ∧ ¬ ParsersAgree "source_facts:" := by
  have raises : citedFacts "source_facts:" = .error ⟨.indexError, "list index out of range"⟩ := by
    decide
  refine ⟨raises, by decide, ?_⟩
  rintro ⟨cited, ids, read, -⟩
  rw [raises] at read
  cases read

/-- White space after the marker stops the pattern but not the erasure. -/
example : citedFacts "source_facts: 5" = .ok [5] ∧ citedIds "source_facts: 5" = .ok [] := by decide

end Enfold.Laws
