namespace AgentHost.Text

def cutAt (marker : List Char) : List Char → Option (List Char × List Char)
  | [] => none
  | c :: rest =>
    if marker.isPrefixOf (c :: rest) then some ([], (c :: rest).drop marker.length)
    else (cutAt marker rest).map fun (before, after) => (c :: before, after)

def heldSuffix (marker : List Char) : List Char → List Char
  | [] => []
  | c :: rest =>
    if (c :: rest).isPrefixOf marker && (c :: rest) != marker then c :: rest
    else heldSuffix marker rest

theorem cutAt_shorter {marker text before after : List Char} (nonempty : marker ≠ [])
    (found : cutAt marker text = some (before, after)) : after.length < text.length := by
  induction text generalizing before with
  | nil => simp [cutAt] at found
  | cons c rest ih =>
    have positive := List.length_pos_iff.mpr nonempty
    simp only [cutAt] at found
    split at found
    · simp only [Option.some.injEq, Prod.mk.injEq] at found
      rw [← found.2, List.length_drop, List.length_cons]
      omega
    · cases cut : cutAt marker rest with
      | none => simp [cut] at found
      | some parts =>
        simp only [cut, Option.map_some, Option.some.injEq, Prod.mk.injEq] at found
        have shorter := @ih parts.1 (by rw [cut, ← found.2])
        rw [List.length_cons]
        omega

namespace Markup

def opening : List Char := ['<', 't', 'o', 'o', 'l', '_', 'u', 's', 'e', '>']

def closing : List Char := ['<', '/', 't', 'o', 'o', 'l', '_', 'u', 's', 'e', '>']

def sought (inside : Bool) : List Char := if inside then closing else opening

theorem sought_nonempty (inside : Bool) : sought inside ≠ [] := by
  cases inside <;> simp [sought, opening, closing]

end Markup

/-- Removes the spans between two markers from text that comes in chunks. `held` is the end of the
    text so far if it may be the beginning of the next marker. -/
structure Markup where
  inside : Bool := false
  held : List Char := []
deriving Repr, DecidableEq

namespace Markup

def scan (inside : Bool) (text : List Char) : List Char × Markup :=
  match _found : cutAt (sought inside) text with
  | some (before, after) =>
    let (shown, state) := scan (!inside) after
    ((if inside then [] else before) ++ shown, state)
  | none =>
    let held := heldSuffix (sought inside) text
    let body := text.take (text.length - held.length)
    (if inside then [] else body, ⟨inside, held⟩)
termination_by text.length
decreasing_by exact cutAt_shorter (sought_nonempty inside) _found

def push (state : Markup) (chunk : String) : String × Markup :=
  let (shown, next) := scan state.inside (state.held ++ chunk.toList)
  (String.ofList shown, next)

def finish (state : Markup) : String × Markup :=
  (if state.inside then "" else String.ofList state.held, { state with held := [] })

def removeAll (marker : List Char) (nonempty : marker ≠ []) (text : List Char) : List Char :=
  match _found : cutAt marker text with
  | some (before, after) => before ++ removeAll marker nonempty after
  | none => text
termination_by text.length
decreasing_by exact cutAt_shorter nonempty _found

/-- Removes the opening markers in one pass and the closing ones in another. The text between them
    stays. -/
def strip (text : String) : String :=
  String.ofList <|
    removeAll closing (sought_nonempty true) (removeAll opening (sought_nonempty false) text.toList)

end Markup

end AgentHost.Text
