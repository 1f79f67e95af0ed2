import Skynet.Base.Run

/-! Singly linked queues: a head and a tail pointer, and a `next` field in every
node. Pushing asserts that the new node has no successor. -/
namespace Base
open List Function

structure Chain where
  head : Option Nat
  tail : Option Nat
  next : Nat → Option Nat

def Chain.empty : Chain := ⟨none, none, fun _ => none⟩

/- None is a failed assertion. -/
def Chain.push (c : Chain) (x : Nat) : Option Chain :=
  if c.next x = none then
    match c.tail with
    | some last => some { c with tail := some x, next := update c.next last (some x) }
    | none => some { c with head := some x, tail := some x }
  else none

def Chain.pop (c : Chain) : Option (Option Nat × Chain) :=
  match c.head with
  | none => some (none, c)
  | some x =>
    let next := update c.next x none
    match c.next x with
    | some y => some (some x, { c with head := some y, next := next })
    | none => if c.tail = some x then some (some x, ⟨none, none, next⟩) else none

def successor : List Nat → Nat → Option Nat
  | [], _ => none
  | a :: l, x => if x = a then l.head? else successor l x

/-- The chain consists of exactly these nodes, in this order. -/
structure Chain.Linked (c : Chain) (l : List Nat) : Prop where
  head : c.head = l.head?
  tail : c.tail = l.getLast?
  nodup : l.Nodup
  next : c.next = successor l

theorem chain_empty : Chain.empty.Linked [] := ⟨rfl, rfl, List.nodup_nil, rfl⟩

variable {l : List Nat} {x : Nat} {c : Chain}

theorem successor_absent (absent : x ∉ l) : successor l x = none := by
  induction l with
  | nil => rfl
  | cons a l ih =>
    simp only [mem_cons, not_or] at absent
    simp only [successor, if_neg absent.1, ih absent.2]

theorem successor_snoc {last : Nat} (nodup : (l ++ [last]).Nodup) :
    successor (l ++ [last, x]) = update (successor (l ++ [last])) last (some x) := by
  funext y
  induction l with
  | nil =>
    by_cases same : y = last
    · simp [successor, same]
    · simp [successor, same]
  | cons a l ih =>
    simp only [cons_append, nodup_cons] at nodup
    have other : last ≠ a := by
      rintro rfl
      exact nodup.1 (by simp)
    simp only [cons_append, successor, ih nodup.2, update_apply]
    by_cases first : y = a
    · cases l <;> simp [first, other.symm]
    · simp [first]

/- The assertion of the push holds for every node outside the chain. -/
theorem chain_push (linked : c.Linked l) (absent : x ∉ l) :
    ∃ c', c.push x = some c' ∧ c'.Linked (l ++ [x]) := by
  have free : c.next x = none := by rw [linked.next, successor_absent absent]
  have nodup : (l ++ [x]).Nodup := by
    simpa using List.Nodup.concat absent linked.nodup
  rcases eq_nil_or_concat l with rfl | ⟨front, last, rfl⟩
  · have tail : c.tail = none := linked.tail
    refine ⟨{ c with head := some x, tail := some x }, ?_, rfl, rfl, nodup, ?_⟩
    · simp only [Chain.push, free, tail, if_true]
    · rw [linked.next]
      funext y
      simp [successor]
  · have tail : c.tail = some last := by simpa using linked.tail
    refine ⟨{ c with tail := some x, next := update c.next last (some x) },
      ?_, ?_, by simp, nodup, ?_⟩
    · simp only [Chain.push, free, tail, if_true]
    · have head := linked.head
      cases front <;> simpa using head
    · rw [linked.next, concat_eq_append] at *
      rw [append_assoc, cons_append, nil_append]
      exact (successor_snoc (by simpa using linked.nodup)).symm

theorem chain_pop_nil (linked : c.Linked []) : c.pop = some (none, c) := by
  have head : c.head = none := linked.head
  simp only [Chain.pop, head]

theorem chain_pop_cons (linked : c.Linked (x :: l)) :
    ∃ c', c.pop = some (some x, c') ∧ c'.Linked l := by
  have head : c.head = some x := linked.head
  have following : c.next x = l.head? := by rw [linked.next]; simp [successor]
  have absent : x ∉ l := (nodup_cons.mp linked.nodup).1
  have unlinked : update c.next x none = successor l := by
    rw [linked.next]
    funext y
    by_cases same : y = x
    · rw [same, update_self, successor_absent absent]
    · simp [successor, same]
  have nodup := (nodup_cons.mp linked.nodup).2
  cases l with
  | nil =>
    have tail : c.tail = some x := linked.tail
    refine ⟨⟨none, none, update c.next x none⟩, ?_, rfl, rfl, nodup, unlinked⟩
    have last : c.next x = none := following
    simp only [Chain.pop, head, last, tail, if_true]
  | cons y l =>
    refine ⟨{ c with head := some y, next := update c.next x none }, ?_, rfl, ?_, nodup, unlinked⟩
    · have more : c.next x = some y := following
      simp only [Chain.pop, head, more]
    · have tail := linked.tail
      simpa [getLast?_cons_cons] using tail

end Base
