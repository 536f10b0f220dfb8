/-
# Model.JsonBlocks -- the first JSON block in a model's answer (`llm_extract.py`, `reflection.py`)

A model may put prose or fences around the JSON it was asked for.  `extractJsonArray` and
`extractJsonObject` scan for the first balanced block, aware of text literals; they are the same
scan with different brackets.
-/
import Enfold.Theory.JsonScan

namespace Enfold.Model

open Enfold.Theory

set_option autoImplicit false

/-- What the scan keeps from one character to the next. -/
structure BlockScan where
  depth : Int
  inStr : Bool
  escape : Bool

/-- One round of the loop; the flag says that the block is complete. -/
def BlockScan.step (opening closing : Char) (scan : BlockScan) (ch : CodePoint) :
    BlockScan × Bool :=
  if scan.inStr then
    if scan.escape then (⟨scan.depth, scan.inStr, false⟩, false)
    else if ch = .char '\\' then (⟨scan.depth, scan.inStr, true⟩, false)
    else if ch = .char '"' then (⟨scan.depth, false, scan.escape⟩, false)
    else (scan, false)
  else if ch = .char '"' then (⟨scan.depth, true, scan.escape⟩, false)
  else if ch = .char opening then (⟨scan.depth + 1, scan.inStr, scan.escape⟩, false)
  else if ch = .char closing then
    (⟨scan.depth - 1, scan.inStr, scan.escape⟩, scan.depth - 1 = 0)
  else (scan, false)

/-- `for i in range(start, len(text))`: the index of the bracket that completes the block. -/
def scanBlock (opening closing : Char) : BlockScan → Nat → PyText → Option Nat
  | _, _, [] => none
  | scan, i, ch :: rest =>
      let next := scan.step opening closing ch
      if next.2 then some i else scanBlock opening closing next.1 (i + 1) rest

/-- The first balanced block of the text. -/
def extractBlock (opening closing : Char) (text : PyText) : Option PyText :=
  match text.findIdx? (· = .char opening) with
  | none => none
  | some start =>
      (scanBlock opening closing ⟨0, false, false⟩ start (text.drop start)).map fun i =>
        (text.take (i + 1)).drop start

/-- `_extract_json_array`. -/
def extractJsonArray (text : PyText) : Option PyText := extractBlock '[' ']' text

/-- `_extract_json_object`. -/
def extractJsonObject (text : PyText) : Option PyText := extractBlock '\x7b' '\x7d' text

end Enfold.Model
