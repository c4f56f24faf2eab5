import Reflow.Text.Basic

/-!
# Patterns

Patterns describe stretches of a text.  `Pattern.ends p s` lists the spots at which a match of `p`
that starts at `s` can end, the preferred one first: an alternative written earlier is preferred, a
greedy repetition prefers to go on and a lazy one to stop.  `Pattern.find?` is the first match in a
text and `Pattern.cuts` are all of them, one after the other.
-/

namespace Reflow

inductive Pattern where
  | empty
  | one (accepts : Char → Bool)
  /-- The empty stretch between two characters, or ends of the text, that are as required. -/
  | look (holds : Option Char → Option Char → Bool)
  | seq (first second : Pattern)
  /-- A stretch of either kind; the first is preferred. -/
  | alt (first second : Pattern)
  /-- One or more stretches in a row, as many as possible if greedy and else as few. -/
  | repeated (greedy : Bool) (body : Pattern)

/-- A place in a text between two characters. -/
structure Spot where
  /-- The number of characters before it, from some place on. -/
  offset : Nat
  before : Option Char
  rest : Text
deriving DecidableEq, Repr

namespace Spot

/-- The spot after the next character, if that is accepted. -/
def next? (accepts : Char → Bool) (s : Spot) : List Spot :=
  match s.rest with
  | [] => []
  | c :: t => if accepts c then [⟨s.offset + 1, some c, t⟩] else []

end Spot

namespace Pattern

/-! ## Matching at a spot -/

/-- Where one or more steps can end, the preferred spot first.  A step that takes no character is the
last one.  The text that bounds the number of steps is the one after the spot. -/
def iterate (step : Spot → List Spot) (greedy : Bool) : Text → Spot → List Spot
  | [], s => step s
  | _ :: bound, s => (step s).flatMap fun t =>
    if t.offset ≤ s.offset then [t]
    else if greedy then iterate step greedy bound t ++ [t]
    else t :: iterate step greedy bound t

/-- The spots at which a match can end, the preferred one first. -/
def ends : Pattern → Spot → List Spot
  | empty, s => [s]
  | one accepts, s => s.next? accepts
  | look holds, s => if holds s.before s.rest.head? then [s] else []
  | seq p q, s => (p.ends s).flatMap q.ends
  | alt p q, s => p.ends s ++ q.ends s
  | repeated greedy p, s => iterate p.ends greedy s.rest s

/-- What `k` gives for the first spot, in the order of `iterate`, for which it gives anything, where
`step` looks for one among the spots at which a single step can end. -/
def iterateSome? {α : Type} (step : Spot → (Spot → Option α) → Option α) (greedy : Bool) :
    Text → Spot → (Spot → Option α) → Option α
  | [], s, k => step s k
  | _ :: bound, s, k => step s fun t =>
    if t.offset ≤ s.offset then k t
    else if greedy then
      match iterateSome? step greedy bound t k with
      | some a => some a
      | none => k t
    else
      match k t with
      | some a => some a
      | none => iterateSome? step greedy bound t k

/-- What `k` gives for the preferred end of a match for which it gives anything.  Ends after that one
are not looked for. -/
def endSome? {α : Type} : Pattern → Spot → (Spot → Option α) → Option α
  | empty, s, k => k s
  | one accepts, s, k => (s.next? accepts).findSome? k
  | look holds, s, k => if holds s.before s.rest.head? then k s else none
  | seq p q, s, k => p.endSome? s fun t => q.endSome? t k
  | alt p q, s, k =>
    match p.endSome? s k with
    | some a => some a
    | none => q.endSome? s k
  | repeated greedy p, s, k => iterateSome? p.endSome? greedy s.rest s k

theorem findSome?_flatMap {α β γ : Type} (l : List α) (f : α → List β) (k : β → Option γ) :
    (l.flatMap f).findSome? k = l.findSome? fun a => (f a).findSome? k := by
  induction l with
  | nil => rfl
  | cons a l ih =>
    rw [List.flatMap_cons, List.findSome?_append, ih, List.findSome?_cons]
    cases (f a).findSome? k <;> rfl

theorem findSome?_pair {α β : Type} (a : α) (l : List α) (k : α → Option β) :
    (l ++ [a]).findSome? k =
      match l.findSome? k with
      | some b => some b
      | none => k a := by
  rw [List.findSome?_append]
  cases l.findSome? k <;> simp

theorem iterateSome?_eq {α : Type} {step : Spot → (Spot → Option α) → Option α}
    {ends : Spot → List Spot} (h : ∀ s k, step s k = (ends s).findSome? k) (greedy : Bool)
    (bound : Text) (s : Spot) (k : Spot → Option α) :
    iterateSome? step greedy bound s k = (iterate ends greedy bound s).findSome? k := by
  induction bound generalizing s k with
  | nil => exact h s k
  | cons c bound ih =>
    rw [iterateSome?, iterate, h, findSome?_flatMap]
    congr 1
    funext t
    split
    · simp
    · split
      · rw [findSome?_pair, ih]
      · rw [List.findSome?_cons, ih]
        cases k t <;> rfl

theorem endSome?_eq {α : Type} (p : Pattern) (s : Spot) (k : Spot → Option α) :
    p.endSome? s k = (p.ends s).findSome? k := by
  induction p generalizing s k with
  | empty => simp [endSome?, ends]
  | one accepts => rfl
  | look holds =>
    rw [endSome?, ends]
    split <;> simp
  | seq p q ihp ihq =>
    rw [endSome?, ends, findSome?_flatMap, ihp]
    congr 1
    funext t
    exact ihq t k
  | alt p q ihp ihq =>
    rw [endSome?, ends, List.findSome?_append, ihp, ihq]
    cases (p.ends s).findSome? k <;> rfl
  | repeated greedy p ih => exact iterateSome?_eq ih greedy s.rest s k

/-- The length of the preferred match at the start of a text that comes after `before`. -/
def length? (p : Pattern) (before : Option Char) (t : Text) : Option Nat :=
  p.endSome? ⟨0, before, t⟩ fun s => some s.offset

theorem length?_eq (p : Pattern) (before : Option Char) (t : Text) :
    p.length? before t = (p.ends ⟨0, before, t⟩).head?.map fun s => s.offset := by
  rw [length?, endSome?_eq]
  cases p.ends ⟨0, before, t⟩ <;> rfl

/-! ## Searching -/

/-- A match in a text, with what stands before and after it. -/
structure Match where
  gap : Text
  hit : Text
  rest : Text
deriving DecidableEq, Repr

/-- The first match in a text that comes after `before`.  If `fresh`, an empty match right at the
start does not count. -/
def find? (p : Pattern) (fresh : Bool) (before : Option Char) : Text → Option Match
  | [] => if !fresh && (p.length? before []).isSome then some ⟨[], [], []⟩ else none
  | c :: t =>
    match (p.length? before (c :: t)).filter fun n => !(fresh && n = 0) with
    | some n => some ⟨[], (c :: t).take n, (c :: t).drop n⟩
    | none => (p.find? false (some c) t).map fun m => { m with gap := c :: m.gap }

theorem eq_of_find? {p : Pattern} {fresh : Bool} {before : Option Char} {t : Text} {m : Match}
    (h : p.find? fresh before t = some m) : t = m.gap ++ m.hit ++ m.rest := by
  induction t generalizing fresh before m with
  | nil =>
    unfold find? at h
    split at h
    · simp only [Option.some.injEq] at h
      simp [← h]
    · simp at h
  | cons c t ih =>
    unfold find? at h
    split at h
    · simp only [Option.some.injEq] at h
      simp [← h]
    · obtain ⟨m', h', rfl⟩ := Option.map_eq_some_iff.mp h
      simp [ih h']

theorem length_rest_le_of_find? {p : Pattern} {fresh : Bool} {before : Option Char} {t : Text}
    {m : Match} (h : p.find? fresh before t = some m) : m.rest.length ≤ t.length := by
  have := congrArg List.length (eq_of_find? h)
  simp only [List.length_append] at this
  omega

theorem length_rest_lt_of_find? {p : Pattern} {before : Option Char} {t : Text} {m : Match}
    (h : p.find? true before t = some m) : m.rest.length < t.length := by
  cases t with
  | nil => simp [find?] at h
  | cons c t =>
    unfold find? at h
    split at h
    · rename_i n hn
      have hn := (Option.filter_eq_some_iff.mp hn).2
      simp only [Option.some.injEq] at h
      simp only [Bool.true_and, Bool.not_eq_true', decide_eq_false_iff_not] at hn
      simp only [← h, List.length_drop, List.length_cons]
      omega
    · obtain ⟨m', h', rfl⟩ := Option.map_eq_some_iff.mp h
      have := length_rest_le_of_find? h'
      simp only [List.length_cons]
      omega

/-- A match in a row of matches, with what stands between it and the one before. -/
structure Cut where
  /-- The text since the match before. -/
  gap : Text
  hit : Text
deriving DecidableEq, Repr

/-- All matches in a text that comes after `before`, and the text after the last of them.  Each
search starts where the match before ended, and an empty match right there does not count; `fresh`
says that the text starts at the end of a match. -/
def cutsFrom (p : Pattern) (fresh : Bool) (before : Option Char) (t : Text) : List Cut × Text :=
  match _h : p.find? fresh before t with
  | none => ([], t)
  | some m =>
    let later := p.cutsFrom true ((m.gap ++ m.hit).getLast?.or before) m.rest
    (⟨m.gap, m.hit⟩ :: later.1, later.2)
termination_by (t.length, if fresh then 0 else 1)
decreasing_by
  cases fresh with
  | true => exact Prod.Lex.left _ _ (length_rest_lt_of_find? _h)
  | false =>
    rcases Nat.lt_or_eq_of_le (length_rest_le_of_find? _h) with h | h
    · exact Prod.Lex.left _ _ h
    · rw [h]
      exact Prod.Lex.right _ (by simp)

/-- All matches in a text, and the text after the last of them. -/
def cuts (p : Pattern) (t : Text) : List Cut × Text :=
  p.cutsFrom false none t

/-! ## Building patterns -/

def optional (greedy : Bool) (p : Pattern) : Pattern :=
  if greedy then alt p empty else alt empty p

/-- One or more of the pattern in a row.  Repeating a repetition of the same kind adds nothing. -/
def oneOrMore (greedy : Bool) : Pattern → Pattern
  | repeated greedy' p =>
    if greedy = greedy' then repeated greedy p else repeated greedy (repeated greedy' p)
  | alt (repeated true p) empty =>
    if greedy then alt (repeated true p) empty else repeated greedy (alt (repeated true p) empty)
  | alt empty (repeated false p) =>
    if greedy then repeated greedy (alt empty (repeated false p)) else alt empty (repeated false p)
  | p => repeated greedy p

def zeroOrMore (greedy : Bool) (p : Pattern) : Pattern :=
  match oneOrMore greedy p with
  | alt (repeated true p) empty =>
    if greedy then alt (repeated true p) empty else optional greedy (alt (repeated true p) empty)
  | alt empty (repeated false p) =>
    if greedy then optional greedy (alt empty (repeated false p)) else alt empty (repeated false p)
  | p => optional greedy p

def times : Nat → Pattern → Pattern
  | 0, _ => empty
  | 1, p => p
  | n + 1, p => seq p (times n p)

def upTo (greedy : Bool) : Nat → Pattern → Pattern
  | 0, _ => empty
  | n + 1, p => optional greedy (seq p (upTo greedy n p))

def row : List Pattern → Pattern
  | [] => empty
  | [p] => p
  | p :: ps => seq p (row ps)

def choice : List Pattern → Pattern
  | [] => empty
  | [p] => p
  | p :: ps => alt p (choice ps)

def char (c : Char) : Pattern :=
  one (· = c)

def literal (t : Text) : Pattern :=
  row (t.map char)

end Pattern

end Reflow
