import TypedWorkflow.Schema.Error
import TypedWorkflow.Schema.Token
import TypedWorkflow.Text.Blank

/-!
# Reading type tokens

A token is read without regard to blanks around its parts and to the case of ASCII letters. `list`
and `dict` may take arguments in brackets, the latter two of them with a comma between.

## Main definitions

* `TypeToken.ofChars`, `TypeToken.ofText`: the token that a text denotes.
-/

namespace TypedWorkflow.TypeToken

/-! ## Parts -/

/-- The names of the tokens without arguments; some tokens have two. -/
def atoms : List (String × TypeToken) :=
  [("int", .int), ("float", .float), ("str", .str), ("string", .str), ("bool", .bool),
    ("boolean", .bool), ("any", .any), ("json", .any), ("list", .list), ("dict", .dict)]

/-- The token that a name without arguments denotes. -/
def atom? (name : List Char) : Option TypeToken :=
  atoms.lookup (String.ofList name)

/-- A text without the `word` that it starts with. -/
def dropWord? : List Char → List Char → Option (List Char)
  | [], cs => some cs
  | _ :: _, [] => none
  | w :: word, c :: cs => if w = c then dropWord? word cs else none

/-- A text without the closing bracket that it ends with. -/
def dropClosing? : List Char → Option (List Char)
  | [] => none
  | [c] => if c = ']' then some [] else none
  | c :: cs => (dropClosing? cs).map (c :: ·)

/-- The text between the brackets of a token with the given name. -/
def argument? (name token : List Char) : Option (List Char) := do
  match Text.trimStart (← dropWord? name token) with
  | '[' :: rest => dropClosing? rest
  | _ => none

/-- Adds a character to the first of the parts. -/
def consFirst (c : Char) : List (List Char) → List (List Char)
  | [] => [[c]]
  | part :: parts => (c :: part) :: parts

/-- The parts of a text between its commas outside brackets. `depth` brackets are open; a closing
bracket too many changes nothing. -/
def splitAtCommas (depth : Nat) : List Char → List (List Char)
  | [] => [[]]
  | c :: cs =>
    if c = ',' ∧ depth = 0 then [] :: splitAtCommas 0 cs
    else if c = '[' then consFirst c (splitAtCommas (depth + 1) cs)
    else if c = ']' then consFirst c (splitAtCommas (depth - 1) cs)
    else consFirst c (splitAtCommas depth cs)

/-- The two arguments of a dictionary token, if there are two and neither is blank. -/
def splitPair? (arguments : List Char) : Option (List Char × List Char) :=
  match (splitAtCommas 0 arguments).map Text.trim with
  | [key, value] => if key.isEmpty || value.isEmpty then none else some (key, value)
  | _ => none

/-! ## Lengths -/

theorem length_dropWord? {word cs rest : List Char} (h : dropWord? word cs = some rest) :
    rest.length + word.length = cs.length := by
  induction word generalizing cs with
  | nil => simp_all [dropWord?]
  | cons w word ih =>
    cases cs with
    | nil => simp [dropWord?] at h
    | cons c cs =>
      simp only [dropWord?] at h
      split at h
      · have := ih h
        simp only [List.length_cons]
        omega
      · simp at h

theorem length_dropClosing? {cs rest : List Char} (h : dropClosing? cs = some rest) :
    rest.length + 1 = cs.length := by
  induction cs generalizing rest with
  | nil => simp [dropClosing?] at h
  | cons c cs ih =>
    cases cs with
    | nil =>
      simp only [dropClosing?] at h
      split at h <;> simp_all
    | cons d ds =>
      simp only [dropClosing?, Option.map_eq_some_iff] at h
      obtain ⟨r, hr, rfl⟩ := h
      simp [← ih hr]

theorem length_argument? {name token rest : List Char} (h : argument? name token = some rest) :
    rest.length < token.length := by
  simp only [argument?, Option.bind_eq_bind, Option.bind_eq_some_iff] at h
  obtain ⟨after, hafter, h⟩ := h
  have hword := length_dropWord? hafter
  have htrim := Text.length_trimStart_le after
  split at h
  · next inner heq =>
    have hclose := length_dropClosing? h
    rw [heq, List.length_cons] at htrim
    omega
  · simp at h

theorem length_le_of_mem_consFirst {c : Char} {parts : List (List Char)} {n : Nat}
    (h : ∀ p ∈ parts, p.length ≤ n) : ∀ p ∈ consFirst c parts, p.length ≤ n + 1 := by
  cases parts with
  | nil => simp [consFirst]
  | cons q qs =>
    intro p hp
    simp only [consFirst, List.mem_cons] at hp
    rcases hp with rfl | hp
    · have := h q (by simp)
      simp
      omega
    · have := h p (by simp [hp])
      omega

theorem length_le_of_mem_splitAtCommas {depth : Nat} {cs p : List Char}
    (h : p ∈ splitAtCommas depth cs) : p.length ≤ cs.length := by
  induction cs generalizing depth p with
  | nil => simp_all [splitAtCommas]
  | cons c cs ih =>
    simp only [splitAtCommas] at h
    split at h
    · simp only [List.mem_cons] at h
      rcases h with rfl | h
      · simp
      · have := ih h
        simp only [List.length_cons]
        omega
    · split at h
      · exact length_le_of_mem_consFirst (fun q hq => ih hq) p h
      · split at h <;> exact length_le_of_mem_consFirst (fun q hq => ih hq) p h

theorem length_splitPair? {arguments key value : List Char}
    (h : splitPair? arguments = some (key, value)) :
    key.length ≤ arguments.length ∧ value.length ≤ arguments.length := by
  have bound : ∀ p ∈ (splitAtCommas 0 arguments).map Text.trim, p.length ≤ arguments.length := by
    intro p hp
    obtain ⟨q, hq, rfl⟩ := List.mem_map.1 hp
    exact Nat.le_trans (Text.length_trim_le q) (length_le_of_mem_splitAtCommas hq)
  simp only [splitPair?] at h
  split at h
  · next k v heq =>
    split at h
    · simp at h
    · simp only [Option.some.injEq, Prod.mk.injEq] at h
      obtain ⟨rfl, rfl⟩ := h
      exact ⟨bound k (by simp [heq]), bound v (by simp [heq])⟩
  · simp at h

/-! ## Tokens -/

/-- The text that a token is read from: trimmed, its ASCII letters in lower case. -/
def normalize (raw : List Char) : List Char :=
  (Text.trim raw).map Char.toLower

theorem length_normalize_le (raw : List Char) : (normalize raw).length ≤ raw.length := by
  simpa [normalize] using Text.length_trim_le raw

/-- The token that a text denotes. An unknown name is reported as it is written, the arguments of
a dictionary in lower case. -/
def ofChars (raw : List Char) : Except SchemaError TypeToken :=
  match atom? (normalize raw) with
  | some t => .ok t
  | none =>
    match _ : argument? ['l', 'i', 's', 't'] (normalize raw) with
    | some item => (ofChars item).map .listOf
    | none =>
      match _ : argument? ['d', 'i', 'c', 't'] (normalize raw) with
      | some arguments =>
        match _ : splitPair? arguments with
        | some (key, value) => do
          let key ← ofChars key
          let value ← ofChars value
          return .dictOf key value
        | none => .error (.invalidDict ("dict[" ++ String.ofList arguments ++ "]"))
      | none => .error (.unsupportedType (String.ofList (Text.trim raw)))
termination_by raw.length
decreasing_by
  · have := length_argument? ‹argument? ['l', 'i', 's', 't'] _ = some _›
    have := length_normalize_le raw
    omega
  all_goals
    have := length_argument? ‹argument? ['d', 'i', 'c', 't'] _ = some _›
    have := length_splitPair? ‹splitPair? _ = some _›
    have := length_normalize_le raw
    omega

/-- The token that a text denotes. -/
def ofText (text : String) : Except SchemaError TypeToken :=
  ofChars text.toList

end TypedWorkflow.TypeToken
