import Mathlib.Data.List.Basic

/-!
# Regular expressions

Matching by backtracking, as the language defines it, and the replacement of every match. What a
pattern can start with is computed from it (`leads`, `nullable`). A replacement that starts with a
symbol that no match starts with can be told from the text (`Diverges`): replacing leaves a text as
it is exactly where the pattern is not found in it, and no later replacement restores it.
-/
namespace NancyMan

/-- A regular expression without backreferences. A `boundary` tests the symbols before and after a
place. -/
inductive RegExp where
  | empty
  | symbol (test : Char → Bool)
  | sequence (first second : RegExp)
  | either (first second : RegExp)
  | many (greedy : Bool) (body : RegExp)
  | capture (index : Nat) (body : RegExp)
  | boundary (test : Option Char → Option Char → Bool)

namespace RegExp

/-- A place in a text: the symbol before it, the text after it, and what was captured so far. -/
structure Place where
  before : Option Char
  rest : List Char
  captured : List (Nat × List Char)

/-- A body again and again, as long as it takes symbols. -/
def iterate {β : Type} (once : (Place → Option β) → Place → Option β) (greedy : Bool)
    (next : Place → Option β) : Nat → Place → Option β
  | 0, place => next place
  | steps + 1, place =>
    let again := fun (_ : Unit) => once (fun later =>
      if later.rest.length < place.rest.length then iterate once greedy next steps later
      else none) place
    if greedy then (again ()).orElse fun _ => next place else (next place).orElse again

/-- The first way, in the order of backtracking, to match and go on. -/
def run {β : Type} : RegExp → (Place → Option β) → Place → Option β
  | empty, next, place => next place
  | symbol test, next, place =>
    match place.rest with
    | [] => none
    | head :: rest => if test head then next { place with before := some head, rest := rest } else none
  | sequence first second, next, place => run first (run second next) place
  | either first second, next, place =>
    (run first next place).orElse fun _ => run second next place
  | many greedy body, next, place => iterate (run body) greedy next place.rest.length place
  | capture index body, next, place =>
    run body (fun later => next { later with
      captured := (index, place.rest.take (place.rest.length - later.rest.length)) ::
        later.captured }) place
  | boundary test, next, place =>
    if test place.before place.rest.head? then next place else none

/-- A literal text. -/
def literal : List Char → RegExp
  | [] => empty
  | head :: rest => sequence (symbol (· == head)) (literal rest)

/-- `body+`. -/
def plus (body : RegExp) : RegExp := sequence body (many true body)

/-- `body?`. -/
def optional (body : RegExp) : RegExp := either body empty

/-- `body{count}`. -/
def times : Nat → RegExp → RegExp
  | 0, _ => empty
  | count + 1, body => sequence body (times count body)

/-- The first of several patterns that matches. -/
def oneOf : List RegExp → RegExp
  | [] => symbol fun _ => false
  | [last] => last
  | first :: others => either first (oneOf others)

/-- The patterns one after another. -/
def inOrder : List RegExp → RegExp
  | [] => empty
  | [last] => last
  | first :: others => sequence first (inOrder others)

def matchAt (pattern : RegExp) (before : Option Char) (rest : List Char) : Option Place :=
  pattern.run some ⟨before, rest, []⟩

/-- Whether the pattern is found in a text. -/
def foundFrom (pattern : RegExp) : Option Char → List Char → Bool
  | before, [] => (pattern.matchAt before []).isSome
  | before, head :: rest =>
    (pattern.matchAt before (head :: rest)).isSome || pattern.foundFrom (some head) rest

/-- `pattern.test(text)`. -/
def foundIn (pattern : RegExp) (text : List Char) : Bool := pattern.foundFrom none text

/-- Every match from a place on replaced; an empty match is followed by the next symbol. -/
def replaceFrom (pattern : RegExp) (replacement : List Char) :
    Nat → Option Char → List Char → List Char
  | 0, _, rest => rest
  | steps + 1, before, rest =>
    match pattern.matchAt before rest with
    | some found =>
      if found.rest.length < rest.length then
        replacement ++ replaceFrom pattern replacement steps found.before found.rest
      else
        match rest with
        | [] => replacement
        | head :: later =>
          replacement ++ head :: replaceFrom pattern replacement steps (some head) later
    | none =>
      match rest with
      | [] => []
      | head :: later => head :: replaceFrom pattern replacement steps (some head) later

/-- `text.replace(pattern, replacement)`, of a pattern with the flag `g`. -/
def replaceAll (pattern : RegExp) (replacement text : List Char) : List Char :=
  pattern.replaceFrom replacement (text.length + 1) none text

/-! ## What a pattern can start with -/

/-- Whether a pattern may match no symbol. -/
def nullable : RegExp → Bool
  | empty => true
  | symbol _ => false
  | sequence first second => nullable first && nullable second
  | either first second => nullable first || nullable second
  | many _ _ => true
  | capture _ body => nullable body
  | boundary _ => true

/-- Whether a match may start with a symbol. -/
def leads : RegExp → Char → Bool
  | empty, _ => false
  | symbol test, head => test head
  | sequence first second, head => leads first head || (nullable first && leads second head)
  | either first second, head => leads first head || leads second head
  | many _ body, head => leads body head
  | capture _ body, head => leads body head
  | boundary _, _ => false

/-- What a pattern does to a place: it stays, if the pattern is nullable, or takes symbols of which
the pattern may start with the first. -/
def Moves (pattern : RegExp) (place later : Place) : Prop :=
  (pattern.nullable = true ∧ later.rest = place.rest ∧ later.before = place.before) ∨
    ∃ head rest, place.rest = head :: rest ∧ pattern.leads head = true ∧ later.rest <:+ rest

variable {pattern : RegExp} {place later : Place} {β : Type} {result : β} {next : Place → Option β}
  {lead : Char} {text changed : List Char}

theorem moves_suffix (moves : pattern.Moves place later) : later.rest <:+ place.rest := by
  rcases moves with ⟨-, same, -⟩ | ⟨head, rest, starts, -, ending⟩
  · exact same ▸ List.suffix_refl place.rest
  · rw [starts]
    exact ending.trans (List.suffix_cons head rest)

/-- A move after a move. -/
theorem moves_sequence {first second : RegExp} {middle : Place} (one : first.Moves place middle)
    (two : second.Moves middle later) : (sequence first second).Moves place later := by
  rcases one with ⟨null, same, before⟩ | ⟨head, rest, starts, leading, ending⟩
  · rcases two with ⟨null', same', before'⟩ | ⟨head, rest, starts, leading, ending⟩
    · exact .inl ⟨by simp [nullable, null, null'], same'.trans same, before'.trans before⟩
    · refine .inr ⟨head, rest, same ▸ starts, ?_, ending⟩
      simp [leads, null, leading]
  · refine .inr ⟨head, rest, starts, ?_, (moves_suffix two).trans ending⟩
    simp [leads, leading]

theorem either_of_orElse {first : Option β} {second : Unit → Option β}
    (found : first.orElse second = some result) :
    first = some result ∨ second () = some result := by
  cases first with
  | none => exact .inr found
  | some value => exact .inl found

/-- What a body does again and again, its iteration does. -/
theorem iterate_moves {body : RegExp} {greedy : Bool}
    (once : ∀ (go : Place → Option β) place, body.run go place = some result →
      ∃ later, body.Moves place later ∧ go later = some result) {steps : Nat}
    (found : iterate (body.run) greedy next steps place = some result) :
    ∃ later, (many greedy body).Moves place later ∧ next later = some result := by
  induction steps generalizing place with
  | zero => exact ⟨place, .inl ⟨rfl, rfl, rfl⟩, found⟩
  | succ steps ih =>
    -- The iteration goes on with the body or ends here, whichever is tried first.
    have ways : body.run (fun later => if later.rest.length < place.rest.length then
        iterate body.run greedy next steps later else none) place = some result ∨
          next place = some result := by
      cases greedy with
      | true =>
        exact either_of_orElse found
      | false =>
        exact (either_of_orElse found).symm
    rcases ways with again | ended
    · obtain ⟨middle, moved, went⟩ := once _ place again
      split at went
      · obtain ⟨later, moves, reached⟩ := ih went
        refine ⟨later, ?_, reached⟩
        rcases moved with ⟨-, same, -⟩ | ⟨head, rest, starts, leading, ending⟩
        · rename_i shorter
          rw [same] at shorter
          exact absurd shorter (Nat.lt_irrefl _)
        · exact .inr ⟨head, rest, starts, leading, (moves_suffix moves).trans ending⟩
      · cases went
    · exact ⟨place, .inl ⟨rfl, rfl, rfl⟩, ended⟩

/-- What a pattern matches, it moves over. -/
theorem run_moves (pattern : RegExp) (found : pattern.run next place = some result) :
    ∃ later, pattern.Moves place later ∧ next later = some result := by
  induction pattern generalizing next place with
  | empty => exact ⟨place, .inl ⟨rfl, rfl, rfl⟩, found⟩
  | symbol test =>
    unfold run at found
    split at found
    · cases found
    · rename_i head rest starts
      split at found
      · rename_i passes
        exact ⟨_, .inr ⟨head, rest, starts, passes, List.suffix_refl rest⟩, found⟩
      · cases found
  | sequence first second one two =>
    obtain ⟨middle, moved, went⟩ := one found
    obtain ⟨later, moves, reached⟩ := two went
    exact ⟨later, moves_sequence moved moves, reached⟩
  | either first second one two =>
    rcases either_of_orElse found with taken | taken
    · obtain ⟨later, moves, reached⟩ := one taken
      refine ⟨later, ?_, reached⟩
      rcases moves with ⟨null, stays⟩ | ⟨head, rest, starts, leading, ending⟩
      · exact .inl ⟨by simp [nullable, null], stays⟩
      · exact .inr ⟨head, rest, starts, by simp [leads, leading], ending⟩
    · obtain ⟨later, moves, reached⟩ := two taken
      refine ⟨later, ?_, reached⟩
      rcases moves with ⟨null, stays⟩ | ⟨head, rest, starts, leading, ending⟩
      · exact .inl ⟨by simp [nullable, null], stays⟩
      · exact .inr ⟨head, rest, starts, by simp [leads, leading], ending⟩
  | many greedy body ih =>
    exact iterate_moves (fun go place again => ih again) found
  | capture index body ih =>
    obtain ⟨later, moves, reached⟩ := ih found
    refine ⟨{ later with captured := _ }, ?_, reached⟩
    exact moves
  | boundary test =>
    unfold run at found
    split at found
    · exact ⟨place, .inl ⟨rfl, rfl, rfl⟩, found⟩
    · cases found

/-- A match of a pattern that is not nullable takes a symbol that the pattern may start with. -/
theorem matchAt_takes (solid : pattern.nullable = false) {before : Option Char} {rest : List Char}
    {found : Place} (matched : pattern.matchAt before rest = some found) :
    ∃ head later, rest = head :: later ∧ pattern.leads head ∧ found.rest <:+ later := by
  obtain ⟨place, moves, same⟩ := run_moves pattern matched
  obtain rfl := Option.some.inj same
  rcases moves with ⟨null, -⟩ | takes
  · rw [solid] at null
    cases null
  · exact takes

/-! ## Replacing -/

/-- Two texts that are alike up to a symbol that is the lead in the second only. -/
def Diverges (lead : Char) (text changed : List Char) : Prop :=
  ∃ front head rest after, text = front ++ head :: rest ∧ head ≠ lead ∧
    changed = front ++ lead :: after

theorem Diverges.cons (diverges : Diverges lead text changed) (symbol : Char) :
    Diverges lead (symbol :: text) (symbol :: changed) := by
  obtain ⟨front, head, rest, after, same, differs, same'⟩ := diverges
  exact ⟨symbol :: front, head, rest, after, by rw [same]; rfl, differs, by rw [same']; rfl⟩

/-- A text that diverges from another twice diverges from it once. -/
theorem Diverges.trans {middle : List Char} (one : Diverges lead text middle)
    (two : Diverges lead middle changed) : Diverges lead text changed := by
  obtain ⟨front, head, rest, after, rfl, differs, rfl⟩ := one
  obtain ⟨front', head', rest', after', same, differs', rfl⟩ := two
  rcases List.append_eq_append_iff.mp same with ⟨between, rfl, rest_eq⟩ | ⟨between, rfl, rest_eq⟩
  · -- The second change is at the first one or after it, so it keeps the lead there.
    cases between with
    | nil =>
      exact absurd (List.cons.inj rest_eq).1.symm differs'
    | cons symbol between =>
      obtain ⟨rfl, -⟩ := List.cons.inj rest_eq
      exact ⟨front, head, rest, between ++ lead :: after', rfl, differs, by simp⟩
  · cases between with
    | nil =>
      exact absurd (List.cons.inj rest_eq).1 differs'
    | cons symbol between =>
      obtain ⟨rfl, -⟩ := List.cons.inj rest_eq
      exact ⟨front', head', between ++ head :: rest, after', by simp, differs', rfl⟩

theorem Diverges.not_prefix (diverges : Diverges lead text changed) : ¬text <+: changed := by
  obtain ⟨front, head, rest, after, rfl, differs, rfl⟩ := diverges
  intro starts
  have inner := (List.prefix_append_right_inj front).mp starts
  obtain ⟨more, same⟩ := inner
  exact differs (List.cons.inj same).1

section Replacing

variable {pattern : RegExp} {lead : Char} {more : List Char}

/-- Replacing by a text whose first symbol starts no match leaves a text as it is, where nothing is
found in it, and else diverges from it. -/
theorem replaceFrom_cases (solid : pattern.nullable = false) (foreign : pattern.leads lead = false)
    {steps : Nat} {before : Option Char} {rest : List Char} (enough : rest.length < steps) :
    (pattern.foundFrom before rest = false ∧
        pattern.replaceFrom (lead :: more) steps before rest = rest) ∨
      (pattern.foundFrom before rest ∧
        Diverges lead rest (pattern.replaceFrom (lead :: more) steps before rest)) := by
  induction steps generalizing before rest with
  | zero => exact absurd enough (Nat.not_lt_zero _)
  | succ steps ih =>
    cases matched : pattern.matchAt before rest with
    | some found =>
      obtain ⟨head, later, rfl, leading, ending⟩ := matchAt_takes solid matched
      have shorter : found.rest.length < (head :: later).length :=
        Nat.lt_succ_of_le ending.length_le
      right
      constructor
      · rw [foundFrom, matched]
        rfl
      · rw [replaceFrom, matched]
        dsimp only
        rw [if_pos shorter]
        refine ⟨[], head, later, _, rfl, ?_, rfl⟩
        rintro rfl
        rw [foreign] at leading
        cases leading
    | none =>
      cases rest with
      | nil =>
        left
        constructor
        · rw [foundFrom, matched]
          rfl
        · rw [replaceFrom, matched]
      | cons head later =>
        have within : later.length < steps := Nat.lt_of_succ_lt_succ enough
        rw [foundFrom, replaceFrom, matched]
        rcases @ih (some head) later within with ⟨absent, same⟩ | ⟨present, diverges⟩
        · exact .inl ⟨absent, by rw [same]⟩
        · exact .inr ⟨present, diverges.cons head⟩

theorem replaceAll_cases (solid : pattern.nullable = false) (foreign : pattern.leads lead = false)
    (text : List Char) :
    (pattern.foundIn text = false ∧ pattern.replaceAll (lead :: more) text = text) ∨
      (pattern.foundIn text ∧ Diverges lead text (pattern.replaceAll (lead :: more) text)) :=
  replaceFrom_cases solid foreign (Nat.lt_succ_self _)

end Replacing

def replaceEach (patterns : List RegExp) (replacement text : List Char) : List Char :=
  patterns.foldl (fun text pattern => pattern.replaceAll replacement text) text

def Foreign (lead : Char) (patterns : List RegExp) : Prop :=
  ∀ pattern ∈ patterns, pattern.nullable = false ∧ pattern.leads lead = false

section ReplacingEach

variable {patterns : List RegExp} {lead : Char} {more : List Char}

/-- Replacing the matches of several patterns leaves a text as it is, where none of them is found,
and else diverges from it: what one of them changed, no other restores. -/
theorem replaceEach_cases (foreign : Foreign lead patterns) (text : List Char) :
    ((∀ pattern ∈ patterns, pattern.foundIn text = false) ∧
        replaceEach patterns (lead :: more) text = text) ∨
      ((∃ pattern ∈ patterns, pattern.foundIn text) ∧
        Diverges lead text (replaceEach patterns (lead :: more) text)) := by
  induction patterns generalizing text with
  | nil => exact .inl ⟨nofun, rfl⟩
  | cons first others ih =>
    obtain ⟨solid, strange⟩ := foreign first List.mem_cons_self
    have rest : Foreign lead others := fun pattern member =>
      foreign pattern (List.mem_cons_of_mem first member)
    rcases replaceAll_cases solid strange text with ⟨absent, same⟩ | ⟨present, changed⟩
    · have continued : replaceEach (first :: others) (lead :: more) text =
          replaceEach others (lead :: more) text := by
        unfold replaceEach
        rw [List.foldl_cons, same]
      rw [continued]
      rcases ih rest text with ⟨none', kept⟩ | ⟨⟨pattern, member, found⟩, diverges⟩
      · exact .inl ⟨List.forall_mem_cons.mpr ⟨absent, none'⟩, kept⟩
      · exact .inr ⟨⟨pattern, List.mem_cons_of_mem first member, found⟩, diverges⟩
    · right
      refine ⟨⟨first, (.head _), present⟩, ?_⟩
      have continued : replaceEach (first :: others) (lead :: more) text =
          replaceEach others (lead :: more) (first.replaceAll (lead :: more) text) := rfl
      rw [continued]
      rcases ih rest (first.replaceAll (lead :: more) text) with ⟨-, kept⟩ | ⟨-, diverges⟩
      · rw [kept]
        exact changed
      · exact changed.trans diverges

/-- Replacing leaves a text as it is exactly where no pattern is found in it. -/
theorem replaceEach_eq_self_iff (foreign : Foreign lead patterns) (text : List Char) :
    replaceEach patterns (lead :: more) text = text ↔
      ∀ pattern ∈ patterns, pattern.foundIn text = false := by
  rcases replaceEach_cases foreign text with ⟨none', same⟩ | ⟨⟨pattern, member, found⟩, diverges⟩
  · exact iff_of_true same none'
  · refine iff_of_false ?_ ?_
    · intro same
      rw [same] at diverges
      exact diverges.not_prefix (List.prefix_refl text)
    · intro none'
      rw [none' pattern member] at found
      cases found

theorem replaceEach_eq_of_prefix (foreign : Foreign lead patterns) {text : List Char}
    (starts : text <+: replaceEach patterns (lead :: more) text) :
    replaceEach patterns (lead :: more) text = text := by
  rcases replaceEach_cases foreign text with ⟨-, same⟩ | ⟨-, diverges⟩
  · exact same
  · exact absurd starts diverges.not_prefix

end ReplacingEach

end RegExp
end NancyMan
