import Mathlib

/-! Hash tables of chains, in which an element is found by its key and put at the front of
its chain. -/
namespace Base
open List Function Option

variable {α κ : Type} [DecidableEq κ] (key : α → κ) (hash : κ → Nat)

/- Takes the first element with this key out of a chain. -/
def takeKey (k : κ) : List α → Option (α × List α)
  | [] => none
  | x :: l => if key x = k then some (x, l) else (takeKey k l).map fun (y, l) => (y, x :: l)

def takeBucket (table : Nat → List α) (k : κ) : Option (α × (Nat → List α)) :=
  (takeKey key k (table (hash k))).map fun (x, l) => (x, update table (hash k) l)

def putBucket (table : Nat → List α) (x : α) : Nat → List α :=
  update table (hash (key x)) (x :: table (hash (key x)))

def lookup (table : Nat → List α) (k : κ) : Option α :=
  (table (hash k)).find? fun x => key x = k

/-- No key stands twice in a chain. -/
def Distinct (table : Nat → List α) : Prop := ∀ h, ((table h).map key).Nodup

theorem takeKey_none {k : κ} {l : List α} (absent : takeKey key k l = none) :
    l.find? (fun x => key x = k) = none := by
  induction l with
  | nil => rfl
  | cons x l ih =>
    unfold takeKey at absent
    by_cases found : key x = k
    · simp [found] at absent
    · simp only [found, if_false, map_eq_none_iff] at absent
      simpa [found] using ih absent

theorem takeKey_some {k : κ} {x : α} {l rest : List α} (taken : takeKey key k l = some (x, rest)) :
    key x = k ∧ l.find? (fun y => key y = k) = some x ∧ rest.Sublist l ∧
      (∀ k', k' ≠ k → rest.find? (fun y => key y = k') = l.find? (fun y => key y = k')) ∧
      ((l.map key).Nodup → k ∉ rest.map key) := by
  induction l generalizing rest with
  | nil => cases taken
  | cons y l ih =>
    unfold takeKey at taken
    by_cases found : key y = k
    · simp only [found, if_true, Option.some.injEq, Prod.mk.injEq] at taken
      obtain ⟨rfl, rfl⟩ := taken
      refine ⟨found, by simp [found], sublist_cons_self .., fun k' other => ?_, fun nodup => ?_⟩
      · have apart : key y ≠ k' := fun same => other (same.symm.trans found)
        simp [apart]
      · exact found ▸ (nodup_cons.mp nodup).1
    · simp only [found, if_false] at taken
      obtain ⟨⟨z, l'⟩, inner, pair⟩ := map_eq_some_iff.mp taken
      obtain ⟨rfl, rfl⟩ := Prod.mk.inj pair
      obtain ⟨same, find, sub, others, gone⟩ := ih inner
      refine ⟨same, by simpa [found] using find, sub.cons_cons y, fun k' other => ?_,
        fun nodup => ?_⟩
      · simp only [find?_cons, others k' other]
      · have tail := gone (nodup_cons.mp nodup).2
        simpa [Ne.symm found] using tail

section Table
variable {key hash} {table : Nat → List α}

theorem lookup_none {k : κ} (absent : takeBucket key hash table k = none) :
    lookup key hash table k = none :=
  takeKey_none key (map_eq_none_iff.mp absent)

theorem takeBucket_spec (distinct : Distinct key table) {k : κ} {x : α} {table' : Nat → List α}
    (taken : takeBucket key hash table k = some (x, table')) :
    key x = k ∧ lookup key hash table k = some x ∧ Distinct key table' ∧
      lookup key hash table' k = none ∧
      ∀ k', k' ≠ k → lookup key hash table' k' = lookup key hash table k' := by
  obtain ⟨⟨y, rest⟩, inner, pair⟩ := map_eq_some_iff.mp taken
  obtain ⟨rfl, rfl⟩ := Prod.mk.inj pair
  obtain ⟨same, find, sub, others, gone⟩ := takeKey_some key inner
  refine ⟨same, find, fun h => ?_, ?_, fun k' other => ?_⟩
  · by_cases here : h = hash k
    · rw [here, update_self]
      exact (distinct (hash k)).sublist (sub.map key)
    · rw [update_of_ne here]
      exact distinct h
  · unfold lookup
    rw [update_self]
    refine find?_eq_none.mpr fun z member found => ?_
    exact gone (distinct (hash k)) (mem_map.mpr ⟨z, member, of_decide_eq_true found⟩)
  · unfold lookup
    by_cases here : hash k' = hash k
    · rw [here, update_self, others k' other]
    · rw [update_of_ne here]

theorem putBucket_spec (distinct : Distinct key table) {x : α}
    (absent : lookup key hash table (key x) = none) :
    Distinct key (putBucket key hash table x) ∧
      lookup key hash (putBucket key hash table x) (key x) = some x ∧
      ∀ k', k' ≠ key x →
        lookup key hash (putBucket key hash table x) k' = lookup key hash table k' := by
  unfold putBucket
  refine ⟨fun h => ?_, ?_, fun k' other => ?_⟩
  · by_cases here : h = hash (key x)
    · rw [here, update_self, map_cons]
      refine nodup_cons.mpr ⟨fun member => ?_, distinct (hash (key x))⟩
      obtain ⟨y, inside, same⟩ := mem_map.mp member
      exact find?_eq_none.mp absent y inside (decide_eq_true same)
    · rw [update_of_ne here]
      exact distinct h
  · unfold lookup
    rw [update_self]
    simp
  · unfold lookup
    by_cases here : hash k' = hash (key x)
    · rw [here, update_self]
      simp [Ne.symm other]
    · rw [update_of_ne here]

end Table

end Base
