import ObservabilityStack.Lib.Dict
import ObservabilityStack.Python.Text

/-!
# The values `json.loads` returns, and how they print

A value of `json.loads` is `None`, a `bool`, an `int`, a `float`, a `str`, a `list` or a
`dict`. A `float` is carried as its `repr`, since nothing here computes with one. A `dict` is
carried as the pairs it was built from, in order; what they denote is `Json.members`, where a
repeated key keeps its first position and its last value. So every list of pairs is a `dict`,
and no lemma has to assume that keys are distinct.

Two functions print such a value: `repr` (and `str`, which differs on a top-level string only)
and `json.dumps`. They walk the tree in the same way and differ in the atoms, so they are one
function, `Json.render`, at two styles.

The model is faithful where the services can tell: the order of the members, which survives into
every table and log line that is printed; that a key is looked up after the last assignment to it;
that `True` is no `1` to a printer. It leaves out identity and mutation, since no value is shared
by two parts of a program that one of them changes.
-/

set_option autoImplicit false

namespace ObservabilityStack
namespace Python

inductive Json
  | null
  | bool (b : Bool)
  | int (n : ℤ)
  | float (text : String)
  | str (s : String)
  | arr (items : List Json)
  | obj (pairs : List (String × Json))

namespace Json

/-- The `dict` that inserting the pairs in order builds. -/
def members {β : Type} (pairs : List (String × β)) : Dict String β :=
  pairs.foldl (fun d p => d.set p.1 p.2) .empty

/-- `d.get(key, default)` on the `dict` of those pairs. -/
def getD (pairs : List (String × Json)) (key : String) (default : Json) : Json :=
  (members pairs).getD key default

/-- `d.get(key)`, where `None` stands for an absent key and for a `null` alike. -/
def get (pairs : List (String × Json)) (key : String) : Json := getD pairs key .null

/-- Later pairs of other keys do not change what a key reads. -/
theorem get?_members_append {β : Type} {pairs later : List (String × β)} {key : String}
    (h : ∀ e ∈ later, e.1 ≠ key) :
    (members (pairs ++ later)).get? key = (members pairs).get? key := by
  induction later using List.reverseRecOn with
  | nil => rw [List.append_nil]
  | append_singleton later e ih =>
    have hset : members (pairs ++ (later ++ [e])) = (members (pairs ++ later)).set e.1 e.2 := by
      simp [members]
    rw [hset, Dict.get?_set, if_neg (h e (by simp)).symm, ih fun e' he' => h e' (by simp [he'])]

/-- A comprehension that keeps the keys maps what each of them reads. -/
theorem get?_members_map {β γ : Type} (f : String → β → γ) (pairs : List (String × β))
    (key : String) :
    (members (pairs.map fun p => (p.1, f p.1 p.2))).get? key =
      ((members pairs).get? key).map (f key) := by
  induction pairs using List.reverseRecOn with
  | nil => rfl
  | append_singleton pairs p ih =>
    unfold members at ih ⊢
    rw [List.map_append, List.foldl_append, List.foldl_append]
    simp only [List.map_cons, List.map_nil, List.foldl_cons, List.foldl_nil, Dict.get?_set]
    rw [ih]
    split
    · rename_i hkey
      rw [hkey]
      rfl
    · rfl

/-- Pairs with different keys are the entries of their `dict`. -/
theorem entries_members {β : Type} {pairs : List (String × β)}
    (h : (pairs.map Prod.fst).Nodup) : (members pairs).entries = pairs := by
  induction pairs using List.reverseRecOn with
  | nil => rfl
  | append_singleton pairs p ih =>
    rw [List.map_append, List.map_singleton] at h
    obtain ⟨hnodup, -, hnot⟩ := List.nodup_append.mp h
    have hset : members (pairs ++ [p]) = (members pairs).set p.1 p.2 := by simp [members]
    have hfresh : p.1 ∉ (members pairs).entries.map Prod.fst := by
      rw [ih hnodup]
      intro hmem
      exact hnot p.1 hmem p.1 (List.mem_singleton.mpr rfl) rfl
    rw [hset]
    exact (Dict.assign_of_notMem hfresh).trans (by rw [ih hnodup])

/-- What a `dict` holds is among the pairs it was built from. -/
theorem mem_of_mem_members {β : Type} {pairs : List (String × β)} {e : String × β}
    (h : e ∈ (members pairs).entries) : e ∈ pairs := by
  induction pairs using List.reverseRecOn with
  | nil => exact absurd h (by simp [members, Dict.empty])
  | append_singleton pairs p ih =>
    have hset : members (pairs ++ [p]) = (members pairs).set p.1 p.2 := by simp [members]
    have hget : (members (pairs ++ [p])).get? e.1 = some e.2 := Dict.mem_entries.mp h
    rw [hset, Dict.get?_set] at hget
    split at hget
    · rename_i hkey
      have hp : p = e := Prod.ext hkey.symm (Option.some.inj hget)
      exact List.mem_append_right _ (List.mem_singleton.mpr hp.symm)
    · exact List.mem_append_left _ (ih (Dict.mem_entries.mpr hget))

/-! ## Printing

The two printers are kept as one walk so that a fact about the shape of the text, such as that it
is cut at the same commas, is proved once. What they disagree on is a `Style`. -/

/-- The atoms of a printer. -/
structure Style where
  null : String
  true : String
  false : String
  float : String → String
  str : String → String

mutual

def render (style : Style) : Json → String
  | .null => style.null
  | .bool b => if b then style.true else style.false
  | .int n => toString n
  | .float text => style.float text
  | .str s => style.str s
  | .arr items => "[" ++ ", ".intercalate (renderItems style items) ++ "]"
  | .obj pairs =>
      "\x7b" ++ ", ".intercalate ((members (renderPairs style pairs)).entries.map fun e =>
        style.str e.1 ++ ": " ++ e.2) ++ "\x7d"

def renderItems (style : Style) : List Json → List String
  | [] => []
  | item :: items => render style item :: renderItems style items

def renderPairs (style : Style) : List (String × Json) → List (String × String)
  | [] => []
  | (key, value) :: pairs => (key, render style value) :: renderPairs style pairs

end

theorem renderPairs_eq (style : Style) (pairs : List (String × Json)) :
    renderPairs style pairs = pairs.map fun p => (p.1, render style p.2) := by
  induction pairs with
  | nil => rfl
  | cons p pairs ih =>
    rw [renderPairs, ih]
    rfl

def reprStyle [Unicode] : Style := ⟨"None", "True", "False", id, reprStr⟩

/-- `repr(value)`. -/
def repr [Unicode] : Json → String := render reprStyle

/-- `str(value)`. -/
def toStr [Unicode] : Json → String
  | .str s => s
  | value => repr value

/-! ## `json.dumps`

The services call it in both ways: an answer or a request is written in ASCII, a log line with
`ensure_ascii=False`. Which characters are escaped is the whole difference between them. -/

/-- A UTF-16 code unit as `\uXXXX`. -/
def escapeUnit (n : ℕ) : List Char := ['\\', 'u'] ++ hex 4 n

/-- One character of a string. Beyond ASCII, and for the delete character, `ensure_ascii`
    decides. -/
def escapeChar (ensureAscii : Bool) (c : Char) : List Char :=
  if c = '"' ∨ c = '\\' then ['\\', c]
  else if c = '\n' then ['\\', 'n']
  else if c = '\r' then ['\\', 'r']
  else if c = '\t' then ['\\', 't']
  else if c.toNat = 0x0C then ['\\', 'f']
  else if c.toNat = 0x08 then ['\\', 'b']
  else if c.toNat < 0x20 then escapeUnit c.toNat
  else if c.toNat ≤ 0x7E ∨ !ensureAscii then [c]
  else if c.toNat ≤ 0xFFFF then escapeUnit c.toNat
  else escapeUnit (0xD800 + (c.toNat - 0x10000) / 0x400) ++
    escapeUnit (0xDC00 + (c.toNat - 0x10000) % 0x400)

def escape (ensureAscii : Bool) (s : String) : String :=
  String.ofList (['"'] ++ s.toList.flatMap (escapeChar ensureAscii) ++ ['"'])

/-- The three floats JSON has no spelling for are written the way Javascript does. -/
def dumpsFloat (text : String) : String :=
  if text = "inf" then "Infinity" else if text = "-inf" then "-Infinity"
  else if text = "nan" then "NaN" else text

def dumpsStyle (ensureAscii : Bool) : Style :=
  ⟨"null", "true", "false", dumpsFloat, escape ensureAscii⟩

/-- `json.dumps(value, ensure_ascii=ensureAscii)`. -/
def dumps (ensureAscii : Bool) : Json → String := render (dumpsStyle ensureAscii)

example : dumps true (.obj [("a", .int 1), ("b", .null), ("a", .arr [.str "é"])]) =
    "\x7b\"a\": [\"\\u00e9\"], \"b\": null\x7d" := by decide

end Json
end Python
end ObservabilityStack
