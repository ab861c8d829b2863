/-!
# `ResolverWiring.Text.TerminalCode` — codes that direct a terminal

A terminal takes colours and movements as codes inside the text: the escape character and a bracket,
parameters, and a letter. What is printed to something else than a terminal goes without them
(`withoutCodes`). An escape character that starts no code is kept.
-/

namespace ResolverWiring.Text

/-- The parameters of a code are written with digits, semicolons and question marks. -/
def isCodeParameter (c : Char) : Bool := c.isDigit || c == ';' || c == '?'

/-- The text behind the parameters and the letter of a code whose bracket has been read. -/
def behindCode? (cs : List Char) : Option (List Char) :=
  match cs.dropWhile isCodeParameter with
  | c :: rest => if c.isAlpha then some rest else none
  | [] => none

theorem behindCode?_length {cs rest : List Char} (h : behindCode? cs = some rest) :
    rest.length < cs.length := by
  have hdrop := (List.dropWhile_sublist isCodeParameter (l := cs)).length_le
  unfold behindCode? at h
  split at h
  · rename_i c others hothers
    split at h
    · rw [hothers, List.length_cons] at hdrop
      simp only [Option.some.injEq] at h
      rw [← h]
      omega
    · simp at h
  · simp at h

/-- A text without its codes. -/
def withoutCodes : List Char → List Char
  | [] => []
  | '\x1b' :: '[' :: cs =>
    match _h : behindCode? cs with
    | some rest => withoutCodes rest
    | none => '\x1b' :: '[' :: withoutCodes cs
  | c :: cs => c :: withoutCodes cs
termination_by cs => cs.length
decreasing_by
  · have := behindCode?_length _h
    simp only [List.length_cons]
    omega
  · simp only [List.length_cons]
    omega
  · exact Nat.lt_succ_self _

end ResolverWiring.Text
