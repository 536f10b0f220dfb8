/-
# Laws.CredentialScreen -- what the built-in screen sees

The screen joins the texts of a request, one a line, and searches the whole.  A newline is no
word character, so a text with the shape of a credential is found among the joined ones as it
would be found alone (`screen_sees`).  The metadata of a request are searched as they are dumped,
not as they are read.
-/
import Enfold.Theory.Occurrence
import Enfold.Model.Policy

namespace Enfold.Laws

open Enfold.Theory Enfold.Model

set_option autoImplicit false

/-- The characters that the screen searches. -/
def screenedChars (request : WriteRequest) (extraText : List String) : List Char :=
  ['\n'].intercalate
    (([request.content.toList, (request.observationContent.getD "").toList,
      (request.evidenceExcerpt.getD "").toList, (request.sourceUri.getD "").toList,
      (request.assertedBy.getD "").toList, request.category.toList, request.tags.toList,
      Json.dump .ascii request.metadataJson] ++ extraText.map String.toList).filter (· ≠ []))

theorem screenedText_chars (request : WriteRequest) (extraText : List String) :
    (screenedText request extraText).toList = screenedChars request extraText := by
  have keeps : ∀ texts : List String,
      (texts.filter (· ≠ "")).map String.toList = (texts.map String.toList).filter (· ≠ []) := by
    intro texts
    rw [List.filter_map]
    congr 1
    refine List.filter_congr fun text _ => ?_
    simp only [Function.comp_apply, ne_eq, String.toList_eq_nil_iff]
  unfold screenedText screenedChars
  rw [String.toList_intercalate, keeps]
  simp only [List.map_append, List.map_cons, List.map_nil, Json.dumps, String.toList_ofList]
  rfl

/-- The screen, on characters. -/
theorem screen_refuses_iff {request : WriteRequest} {extraText : List String} :
    (defaultCredentialScreen request extraText).isSome ↔
      credentialShapes.any fun pattern =>
        pattern.searchFrom none (screenedChars request extraText) := by
  have same : ∀ pattern : Regex, pattern.search (screenedText request extraText) =
      pattern.searchFrom none (screenedChars request extraText) := by
    intro pattern
    rw [Regex.search, screenedText_chars]
  unfold defaultCredentialScreen
  simp only [same]
  split
  · rename_i found
    exact iff_of_true rfl found
  · rename_i missed
    exact iff_of_false Bool.false_ne_true missed

/-- The text has the shape of a credential. -/
def CredentialText (text : String) : Prop :=
  credentialShapes.any fun pattern => pattern.search text

instance credentialText_decidable (text : String) : Decidable (CredentialText text) :=
  inferInstanceAs (Decidable (_ = true))

theorem empty_harmless : ¬ CredentialText "" := by
  decide +kernel

/-- The texts that the screen searches as they are. -/
def searchedTexts (request : WriteRequest) (extraText : List String) : List String :=
  [request.content, request.observationContent.getD "", request.evidenceExcerpt.getD "",
    request.sourceUri.getD "", request.assertedBy.getD "", request.category, request.tags,
    Json.dumps .ascii request.metadataJson] ++ extraText

/-- The screen refuses a request in which any of its texts is shaped like a credential. -/
theorem screen_sees {request : WriteRequest} {extraText : List String} {text : String}
    (mem : text ∈ searchedTexts request extraText) (shaped : CredentialText text) :
    (defaultCredentialScreen request extraText).isSome := by
  obtain ⟨pattern, known, found⟩ := List.any_eq_true.1 shaped
  refine screen_refuses_iff.2 (List.any_eq_true.2 ⟨pattern, known, ?_⟩)
  have filled : text.toList ≠ [] := by
    intro empty
    rw [String.toList_eq_nil_iff] at empty
    exact empty_harmless (empty ▸ shaped)
  have newline : isWord '\n' = false := by decide
  refine Regex.searchFrom_intercalate newline (List.mem_filter.2 ⟨?_, by simpa using filled⟩) found
  rw [searchedTexts] at mem
  rw [List.mem_append] at mem ⊢
  rcases mem with named | extra
  · left
    have mapped := List.mem_map_of_mem (f := String.toList) named
    simpa only [List.map_cons, List.map_nil, Json.dumps, String.toList_ofList] using mapped
  · exact .inr (List.mem_map_of_mem extra)

end Enfold.Laws
