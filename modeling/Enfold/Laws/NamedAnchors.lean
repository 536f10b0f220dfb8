/-
# Laws.NamedAnchors -- which facts the anchor filter keeps

The anchors of a query are cut from it with an alphabet that has the hyphen and the underscore;
the tokens of a fact are runs of letters and digits only (`tokenRuns_solid`).  A word of letters
and digits that stands in a fact on its own is one of its tokens (`mem_tokenSet_of_mention`), so a
query without joined names loses no fact that mentions them.  An anchor with a hyphen or an
underscore is no token of any fact, and such a query finds nothing at all.
-/
import Enfold.Model.HybridRetrieval

namespace Enfold.Laws

open Enfold.Theory Enfold.Model

set_option autoImplicit false

/-- The word stands in the text on its own, in any letter case. -/
def MentionsWord (word text : String) : Prop :=
  ∃ before mention after, text.toList = before ++ mention ++ after ∧
    mention.flatMap lowerChar = word.toList ∧
    (∀ c ∈ before.getLast?, isWord c = false) ∧ ∀ c ∈ after.head?, isWord c = false

/-! ## Tokens of a text -/

/-- A run between characters of no token is a token. -/
theorem mem_tokenRuns {word before run after : List Char} (solid : ∀ c ∈ run, TokenChar c)
    (nonempty : run ≠ []) (start : before = [] → word = [])
    (left : ∀ c ∈ before.getLast?, ¬ TokenChar c) (right : ∀ c ∈ after.head?, ¬ TokenChar c) :
    String.ofList run ∈ tokenRuns word (before ++ run ++ after) := by
  induction before generalizing word with
  | nil =>
      rw [start rfl, List.nil_append, tokenRuns_append run after solid, List.append_nil]
      have filled : run.reverse.isEmpty = false := by simpa using nonempty
      cases after with
      | nil => simp [tokenRuns, filled]
      | cons c after =>
          rw [tokenRuns, if_neg (right c rfl), filled, List.reverse_reverse]
          exact List.mem_cons_self
  | cons c before ih =>
      rw [List.cons_append, List.cons_append, tokenRuns]
      have left' : ∀ c' ∈ before.getLast?, ¬ TokenChar c' := by
        intro c' last
        refine left c' ?_
        rw [List.getLast?_cons, Option.mem_def.1 last]
        rfl
      split
      · rename_i token
        refine ih (fun empty => ?_) left'
        subst empty
        exact absurd token (left c rfl)
      · split
        · exact ih (fun _ => rfl) left'
        · exact List.mem_cons_of_mem _ (ih (fun _ => rfl) left')

theorem tokenRuns_solid {word cs : List Char} (solid : ∀ c ∈ word, TokenChar c) :
    ∀ token ∈ tokenRuns word cs, ∀ c ∈ token.toList, TokenChar c := by
  induction cs generalizing word with
  | nil =>
      intro token mem
      rw [tokenRuns] at mem
      split at mem
      · cases mem
      · cases List.mem_singleton.1 mem
        simpa using solid
  | cons c cs ih =>
      intro token mem
      rw [tokenRuns] at mem
      split at mem
      · rename_i here
        exact ih (List.forall_mem_cons.2 ⟨here, solid⟩) token mem
      split at mem
      · exact ih (fun _ none => absurd none List.not_mem_nil) token mem
      · rcases List.mem_cons.1 mem with rfl | mem
        · simpa using solid
        · exact ih (fun _ none => absurd none List.not_mem_nil) token mem

theorem mem_tokenSet_solid {token text : String} (mem : token ∈ tokenSet text) :
    ∀ c ∈ token.toList, TokenChar c :=
  tokenRuns_solid (fun _ none => absurd none List.not_mem_nil) token (List.mem_dedup.1 mem)

/-! ## Characters beside a mention -/

theorem lt_of_asciiAlnum {c : Char} (alnum : isAsciiAlnum c = true) : c.toNat < 128 := by
  simp only [isAsciiAlnum, isAsciiUpper, isAsciiLower, isAsciiDigit, Bool.or_eq_true,
    Bool.and_eq_true, decide_eq_true_eq, Char.le_def, UInt32.le_iff_toNat_le] at alnum
  unfold Char.toNat
  rcases alnum with (upper | lower) | digit
  · exact Nat.lt_of_le_of_lt upper.2 (by decide)
  · exact Nat.lt_of_le_of_lt lower.2 (by decide)
  · exact Nat.lt_of_le_of_lt digit.2 (by decide)

theorem isWord_of_alnum {c : Char} (alnum : isAsciiAlnum c = true) : isWord c = true := by
  rw [isWord, if_pos (lt_of_asciiAlnum alnum), alnum, Bool.true_or]

/-- A character of no word is of no token, and it has no lower case: the Kelvin sign and the dotted
capital, which have a lower case of their own, are letters. -/
theorem lowerChar_of_not_word {c : Char} (other : isWord c = false) :
    lowerChar c = [c] ∧ ¬ TokenChar c := by
  have apart : ∀ c', isWord c' = true → c ≠ c' := by
    rintro c' word rfl
    rw [other] at word
    cases word
  have plain : isAsciiUpper c = false ∧ isAsciiLower c = false ∧ isAsciiDigit c = false := by
    have alnum : isAsciiAlnum c = false := by
      by_contra alnum
      exact apart c (isWord_of_alnum (Bool.not_eq_false _ ▸ alnum)) rfl
    simpa only [isAsciiAlnum, Bool.or_eq_false_iff, and_assoc] using alnum
  have kelvin : c.toNat ≠ 8490 := fun same =>
    apart (Char.ofNat 8490) (by decide +kernel) (by rw [← same, Char.ofNat_toNat])
  have dotted : c.toNat ≠ 304 := fun same =>
    apart (Char.ofNat 304) (by decide +kernel) (by rw [← same, Char.ofNat_toNat])
  constructor
  · rw [lowerChar, plain.1, if_neg Bool.false_ne_true, if_neg kelvin, if_neg dotted]
  · rw [TokenChar, plain.2.1, plain.2.2]
    decide

/-- A word of letters and digits that stands in a text on its own is a token of it. -/
theorem mem_tokenSet_of_mention {word text rest : String} (solid : ∀ c ∈ word.toList, TokenChar c)
    (nonempty : word ≠ "") (apart : ∀ c ∈ rest.toList.head?, isWord c = false)
    (mention : MentionsWord word text) : word ∈ tokenSet (text ++ rest) := by
  obtain ⟨before, mention, after, split, lowered, left, right⟩ := mention
  have lower : (text ++ rest).toList.flatMap lowerChar =
      before.flatMap lowerChar ++ word.toList ++ (after ++ rest.toList).flatMap lowerChar := by
    rw [String.toList_append, split]
    simp only [List.flatMap_append, lowered, List.append_assoc]
  have outside : ∀ {cs : List Char}, (∀ c ∈ cs.getLast?, isWord c = false) →
      ∀ c ∈ (cs.flatMap lowerChar).getLast?, ¬ TokenChar c := by
    intro cs bound c last
    rcases List.eq_nil_or_concat cs with rfl | ⟨front, d, rfl⟩
    · cases last
    · have other := lowerChar_of_not_word (bound d (by simp))
      rw [List.concat_eq_append, List.flatMap_append, List.flatMap_singleton, other.1,
        List.getLast?_concat] at last
      cases last
      exact other.2
  have beyond : ∀ {cs : List Char}, (∀ c ∈ cs.head?, isWord c = false) →
      ∀ c ∈ (cs.flatMap lowerChar).head?, ¬ TokenChar c := by
    intro cs bound c first
    cases cs with
    | nil => cases first
    | cons d cs =>
        have other := lowerChar_of_not_word (bound d rfl)
        rw [List.flatMap_cons, other.1] at first
        cases first
        exact other.2
  have right' : ∀ c ∈ (after ++ rest.toList).head?, isWord c = false := by
    cases after with
    | nil => exact apart
    | cons d after => exact right
  have found : String.ofList word.toList ∈ tokenRuns [] _ :=
    mem_tokenRuns solid (by simpa using nonempty) (fun _ => rfl) (outside left) (beyond right')
  rw [← lower, String.ofList_toList] at found
  exact List.mem_dedup.2 found

/-! ## Anchors of a query -/

/-- No hyphen and no underscore. -/
def Joinless (anchor : String) : Prop := ∀ c ∈ anchor.toList, c ≠ '-' ∧ c ≠ '_'

instance (anchor : String) : Decidable (Joinless anchor) :=
  inferInstanceAs (Decidable (∀ c ∈ anchor.toList, _))

theorem wordRuns_parts {word cs : List Char} (parts : ∀ c ∈ word, isWordPart c = true) :
    ∀ run ∈ wordRuns word cs, ∀ c ∈ run, isWordPart c = true := by
  have start : ∀ c, isWordStart c = true → isWordPart c = true := by
    intro c starts
    rw [isWordPart, starts]
    rfl
  have none : ∀ c ∈ ([] : List Char), isWordPart c = true := fun _ none =>
    absurd none List.not_mem_nil
  induction cs generalizing word with
  | nil =>
      intro run mem
      rw [wordRuns] at mem
      split at mem
      · cases mem
      · cases List.mem_singleton.1 mem
        simpa using parts
  | cons c cs ih =>
      intro run mem
      rw [wordRuns] at mem
      by_cases here : (if word.isEmpty then isWordStart c else isWordPart c) = true
      · rw [if_pos here] at mem
        refine ih (List.forall_mem_cons.2 ⟨?_, parts⟩) run mem
        split at here
        · exact start c here
        · exact here
      rw [if_neg here] at mem
      split at mem
      · exact ih none run mem
      · rcases List.mem_cons.1 mem with rfl | mem
        · simpa using parts
        · exact ih none run mem

/-- Characters of anchors. -/
def AnchorChar (c : Char) : Prop := TokenChar c ∨ c = '-' ∨ c = '_'

instance (c : Char) : Decidable (AnchorChar c) := inferInstanceAs (Decidable (_ ∨ _ ∨ _))

theorem lowerChar_part {c : Char} (part : isWordPart c = true) :
    ∃ d, lowerChar c = [d] ∧ AnchorChar d ∧ lowerChar d = [d] := by
  have ascii : c.toNat < 128 := by
    simp only [isWordPart, isWordStart, Bool.or_eq_true, decide_eq_true_eq] at part
    rcases part with (((letter | letter) | digit) | rfl) | rfl
    · exact lt_of_asciiAlnum (by rw [isAsciiAlnum, letter, Bool.true_or, Bool.true_or])
    · exact lt_of_asciiAlnum (by rw [isAsciiAlnum, letter, Bool.or_true, Bool.true_or])
    · exact lt_of_asciiAlnum (by rw [isAsciiAlnum, digit, Bool.or_true])
    · decide
    · decide
  have checked : ∀ n < 128, isWordPart (Char.ofNat n) = true →
      ∃ d ∈ lowerChar (Char.ofNat n), lowerChar (Char.ofNat n) = [d] ∧ AnchorChar d ∧
        lowerChar d = [d] := by
    decide +kernel
  obtain ⟨d, -, found⟩ := checked c.toNat ascii (by rwa [Char.ofNat_toNat])
  rw [Char.ofNat_toNat] at found
  exact ⟨d, found⟩

theorem lower_parts {word : List Char} (parts : ∀ c ∈ word, isWordPart c = true) :
    ∀ d ∈ word.flatMap lowerChar, AnchorChar d ∧ lowerChar d = [d] := by
  intro d mem
  obtain ⟨c, place, made⟩ := List.mem_flatMap.1 mem
  obtain ⟨d', lowered, facts⟩ := lowerChar_part (parts c place)
  rw [lowered] at made
  cases List.mem_singleton.1 made
  exact facts

/-- An anchor is a lower case word, and it is not empty. -/
theorem namedAnchor_chars {query anchor : String} (mem : anchor ∈ namedAnchorTokens query) :
    anchor ≠ "" ∧ ∀ d ∈ anchor.toList, AnchorChar d ∧ lowerChar d = [d] := by
  obtain ⟨⟨word, index⟩, chosen, rfl⟩ := List.mem_map.1 (List.mem_dedup.1 mem)
  obtain ⟨place, capital⟩ := List.mem_filter.1 chosen
  have all : ∀ run ∈ wordRuns [] query.toList, ∀ c ∈ run, isWordPart c = true :=
    wordRuns_parts fun _ none => absurd none List.not_mem_nil
  have parts := all word (List.fst_mem_of_mem_zipIdx place)
  refine ⟨fun empty => ?_, by simpa only [String.toList_ofList] using lower_parts parts⟩
  cases word with
  | nil => simp at capital
  | cons c word =>
      obtain ⟨d, lowered, -⟩ := lowerChar_part (parts c List.mem_cons_self)
      have lengths := congrArg String.length empty
      rw [String.length_ofList, List.flatMap_cons, lowered] at lengths
      cases lengths

theorem namedAnchor_solid {query anchor : String} (mem : anchor ∈ namedAnchorTokens query)
    (joinless : Joinless anchor) : ∀ c ∈ anchor.toList, TokenChar c := by
  intro c place
  rcases ((namedAnchor_chars mem).2 c place).1 with token | rfl | rfl
  · exact token
  · exact absurd rfl (joinless _ place).1
  · exact absurd rfl (joinless _ place).2

/-- A text that mentions every anchor. -/
def listing (anchors : List String) : String :=
  String.ofList (anchors.flatMap fun anchor => ' ' :: anchor.toList)

theorem listing_mentions {query anchor : String} (mem : anchor ∈ namedAnchorTokens query) :
    MentionsWord anchor (listing (namedAnchorTokens query)) := by
  have lowered : anchor.toList.flatMap lowerChar = anchor.toList := by
    rw [List.flatMap_congr fun d place => ((namedAnchor_chars mem).2 d place).2]
    exact List.flatMap_singleton' _
  obtain ⟨front, back, split⟩ := List.append_of_mem mem
  refine ⟨front.flatMap (fun anchor => ' ' :: anchor.toList) ++ [' '], anchor.toList,
    back.flatMap fun anchor => ' ' :: anchor.toList, ?_, lowered, ?_, ?_⟩
  · rw [listing, String.toList_ofList, split]
    simp
  · intro c last
    rw [List.getLast?_concat] at last
    cases last
    decide
  · intro c first
    cases back with
    | nil => cases first
    | cons next back =>
        cases first
        decide

/-! ## The filter -/

/-- Every search of the query keeps the active, trusted facts whose content mentions every
anchor. -/
def AnchorsKept (query : String) : Prop :=
  ∀ {F : Type} [Field F] [LinearOrder F] (retriever : HybridRetriever F) (s : Store)
    (request : SearchRequest) (active candidates : List FactRow),
    activeFacts s (some retriever.allowedScopes) request.category retriever.candidateLimit =
      .ok active →
    retriever.candidatesOf s request query = .ok candidates →
    ∀ row ∈ active, request.minTrust.value ≤ row.trustScore.value →
      (∀ anchor ∈ namedAnchorTokens query, MentionsWord anchor row.content) → row ∈ candidates

theorem mem_candidatesOf {F : Type} [Field F] [LinearOrder F] {retriever : HybridRetriever F}
    {s : Store} {request : SearchRequest} {query : String} {active candidates : List FactRow}
    (listed : activeFacts s (some retriever.allowedScopes) request.category
      retriever.candidateLimit = .ok active)
    (done : retriever.candidatesOf s request query = .ok candidates) {row : FactRow} :
    row ∈ candidates ↔ (row ∈ active ∧ request.minTrust.value ≤ row.trustScore.value) ∧
      ∀ anchor ∈ namedAnchorTokens query, anchor ∈ tokenSet (row.content ++ " " ++ row.tags) := by
  obtain ⟨active', listed', done⟩ := bind_eq_ok.1 done
  rw [listed] at listed'
  cases listed'
  rw [← pure_eq_ok.1 done]
  simp only [List.mem_filter, decide_eq_true_eq]

/-- The only active fact of a store: a plain one with this content. -/
def mentioningFact (content : String) : FactRow where
  factId := 1
  content := content
  category := "general"
  tags := ""
  trustScore := Decimal.one
  createdAt := "2026-01-01T00:00:00Z"
  validFrom := none
  invalidAt := none
  supersededBy := none
  memoryKind := none
  subjectKey := none
  predicateKey := none
  objectValue := none
  sourceAuthority := none
  scope := "work"
  sensitivity := "normal"
  correctionStatus := none
  conflictGroup := none

def mentioningFacts (content : String) : Facts where
  table := Table.empty.insert (mentioningFact content) List.not_mem_nil
  sequence := 1
  positive := by
    rintro r mem
    rcases Table.mem_insert.1 mem with never | rfl
    · exact absurd never (Table.not_mem_empty r)
    · exact Nat.zero_lt_one
  bounded := by
    rintro r mem
    rcases Table.mem_insert.1 mem with never | rfl
    · exact absurd never (Table.not_mem_empty r)
    · exact Nat.le_refl 1
  slots := by
    rintro r mem r' mem' k slot
    cases List.mem_singleton.1 mem
    cases slot
  links := by
    rintro r mem k linked
    cases List.mem_singleton.1 mem
    cases linked

def lexicalRetriever : HybridRetriever ℚ where
  embedder := .direct (fun _ => []) fun _ => []
  allowedScopes := ["work"]
  ftsWeight := 0
  jaccardWeight := 1
  denseWeight := 0
  minScore := 0
  candidateLimit := 10
  ranking := defaultRankingConfig
  now := 0
  vectorIndex := none

theorem mentioning_active (content : String) :
    activeFacts { Store.empty with facts := mentioningFacts content } (some ["work"]) none 10 =
      .ok [mentioningFact content] := by
  rfl

/-- An anchor with a hyphen or an underscore excludes every fact; without one no mention is
excluded. -/
theorem anchors_kept_iff (query : String) :
    AnchorsKept query ↔ ∀ anchor ∈ namedAnchorTokens query, Joinless anchor := by
  constructor
  · intro kept anchor mem
    let content := listing (namedAnchorTokens query)
    let s : Store := { Store.empty with facts := mentioningFacts content }
    let request : SearchRequest := ⟨query, none, .zero, 10⟩
    have listed := mentioning_active content
    have trusted : Decimal.zero.value ≤ Decimal.one.value := by decide +kernel
    obtain ⟨candidates, done⟩ : ∃ candidates,
        lexicalRetriever.candidatesOf s request query = .ok candidates := by
      unfold HybridRetriever.candidatesOf
      exact ⟨_, bind_eq_ok.2 ⟨_, listed, rfl⟩⟩
    have survived := kept lexicalRetriever s request _ candidates listed done (mentioningFact content)
      List.mem_cons_self trusted fun _ mem => listing_mentions mem
    have token := ((mem_candidatesOf listed done).1 survived).2 anchor mem
    intro c place
    have solid := mem_tokenSet_solid token c place
    constructor
    · rintro rfl
      exact absurd solid (by decide)
    · rintro rfl
      exact absurd solid (by decide)
  · intro joinless F _ _ retriever s request active candidates listed done row mem trusted mentions
    refine (mem_candidatesOf listed done).2 ⟨⟨mem, trusted⟩, fun anchor place => ?_⟩
    rw [String.append_assoc]
    refine mem_tokenSet_of_mention (namedAnchor_solid place (joinless anchor place))
      (namedAnchor_chars place).1 ?_ (mentions anchor place)
    intro c first
    rw [String.toList_append] at first
    cases first
    decide

/-- The fact that mentions `Foo-Bar` is not found. -/
theorem joined_name_excluded :
    lexicalRetriever.candidatesOf { Store.empty with facts := mentioningFacts "Foo-Bar is open" }
      ⟨"Where is Foo-Bar", none, .zero, 10⟩ "Where is Foo-Bar" = .ok [] ∧
      ¬ AnchorsKept "Where is Foo-Bar" := by
  have empty : lexicalRetriever.candidatesOf
      { Store.empty with facts := mentioningFacts "Foo-Bar is open" }
      ⟨"Where is Foo-Bar", none, .zero, 10⟩ "Where is Foo-Bar" = .ok [] := by decide +kernel
  have anchors : namedAnchorTokens "Where is Foo-Bar" = ["foo-bar"] := by decide +kernel
  refine ⟨empty, fun kept => ?_⟩
  have survived := kept lexicalRetriever _ _ _ [] (mentioning_active "Foo-Bar is open") empty _
    List.mem_cons_self (by decide +kernel) fun anchor mem => ?_
  · cases survived
  · rw [anchors] at mem
    cases List.mem_singleton.1 mem
    refine ⟨[], "Foo-Bar".toList, " is open".toList, by decide, by decide, by simp, ?_⟩
    intro c first
    cases first
    decide

end Enfold.Laws
