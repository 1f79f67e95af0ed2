import Skynet.Base.Run
import Skynet.Handle.Storage

/-! The slot invariant. Every context sits in the slot of the handle it was given,
and registering keeps this as long as the handles a rehash reads are the given ones. -/
namespace Skynet.Handle
open Base List Function Option

theorem getD_snoc (xs : List Nat) (x : Nat) :
    (fun i => (xs ++ [x]).getD i 0) = update (fun i => xs.getD i 0) xs.length x := by
  funext i
  by_cases eq : i = xs.length
  · subst eq; simp
  · rw [update_of_ne eq]
    by_cases less : i < xs.length
    · simp [getElem?_append_left, less]
    · have outside : (xs ++ [x]).length ≤ i := by
        rw [length_append, length_singleton]
        omega
      simp only [getD_eq_default _ _ outside, getD_eq_default _ _ (Nat.le_of_not_lt less)]

/-- The table is a power of two, at most as large as the mask, and each context is
in the slot its handle selects. -/
structure Hashed (s : HandleStorage) (given : Nat → Nat) : Prop where
  size : ∃ k, 2 ≤ k ∧ k ≤ 24 ∧ s.slotSize = 2 ^ k
  harbor : ∃ id, s.harbor = id * 2 ^ 24
  index : s.handleIndex ≤ 2 ^ 24
  slots : ∀ i ctx, s.slot i = some ctx → i < s.slotSize ∧ given ctx % s.slotSize = i

theorem hashed_init (harbor : Nat) (given : Nat → Nat) : Hashed (handleInit harbor) given := by
  refine ⟨⟨2, by decide, by decide, rfl⟩, ⟨harbor &&& 0xff, ?_⟩, ?_, by simp [handleInit]⟩
  · simp [handleInit, handleRemoteShift, Nat.shiftLeft_eq]
  · show 1 ≤ 2 ^ 24
    decide

variable {s : HandleStorage} {given handleOf : Nat → Nat} {ctx : Nat}

section
variable (h : Hashed s given)
include h

theorem Hashed.mask (x : Nat) : x &&& (s.slotSize - 1) = x % s.slotSize := by
  obtain ⟨k, -, -, size⟩ := h.size
  rw [size, Nat.and_two_pow_sub_one_eq_mod]

theorem Hashed.mask_double (x : Nat) : x &&& (s.slotSize * 2 - 1) = x % (s.slotSize * 2) := by
  obtain ⟨k, -, -, size⟩ := h.size
  rw [size, ← Nat.pow_succ, Nat.and_two_pow_sub_one_eq_mod]

theorem Hashed.positive : 0 < s.slotSize := by
  obtain ⟨k, -, -, size⟩ := h.size
  rw [size]
  exact Nat.two_pow_pos k

theorem Hashed.divides : s.slotSize ∣ 2 ^ 24 := by
  obtain ⟨k, -, small, size⟩ := h.size
  rw [size]
  exact Nat.pow_dvd_pow 2 small

theorem Hashed.tidy : s.Tidy := by
  constructor
  · exact fun i ctx here => (h.slots i ctx here).1
  · intro i j ctx hi hj
    rw [← (h.slots i ctx hi).2, ← (h.slots j ctx hj).2]

end

/- A candidate of the scan is a sum taken modulo 2^24. -/
theorem candidate_eq (i index : Nat) :
    (i + index) % 2 ^ 32 &&& handleMask = (i + index) % 2 ^ 24 := by
  have mask : handleMask = 2 ^ 24 - 1 := by decide
  rw [mask, Nat.and_two_pow_sub_one_eq_mod, Nat.mod_mod_of_dvd _ (by decide)]

/- The candidates run through every slot, so a failed scan means a full table. -/
theorem scan_none (h : Hashed s given) (failed : s.scan = none) (j : Nat) (inside : j < s.slotSize) :
    s.slot j ≠ none := by
  unfold HandleStorage.scan at failed
  rw [findSome?_eq_none_iff] at failed
  have positive := h.positive
  have small := Nat.mod_lt s.handleIndex positive
  have here := failed ((j + s.slotSize - s.handleIndex % s.slotSize) % s.slotSize)
    (mem_range.mpr (Nat.mod_lt _ positive))
  dsimp only at here
  rw [candidate_eq, h.mask, Nat.mod_mod_of_dvd _ h.divides] at here
  have residue : ((j + s.slotSize - s.handleIndex % s.slotSize) % s.slotSize + s.handleIndex) %
      s.slotSize = j := by
    rw [Nat.mod_add_mod, ← Nat.add_mod_mod, Nat.sub_add_cancel (by omega), Nat.add_mod_right,
      Nat.mod_eq_of_lt inside]
  rw [residue] at here
  intro free
  simp [free] at here

theorem rehash_fold_ok (is : List Nat) (nodup : is.Nodup) (hash : Nat → Nat)
    (new : Nat → Option Nat)
    (full : ∀ i ∈ is, ∃ ctx, s.slot i = some ctx ∧
      handleOf ctx &&& (s.slotSize * 2 - 1) = hash i ∧ new (hash i) = none)
    (apart : ∀ i ∈ is, ∀ j ∈ is, hash i = hash j → i = j) :
    ∃ new', is.foldlM (rehashOne handleOf s) new = .ok new' := by
  induction is generalizing new with
  | nil => exact ⟨new, rfl⟩
  | cons i is ih =>
    obtain ⟨ctx, here, eq, free⟩ := full i (by simp)
    obtain ⟨absent, nodup⟩ := nodup_cons.mp nodup
    have first : rehashOne handleOf s new i = .ok (update new (hash i) (some ctx)) := by
      simp [rehashOne, here, eq, free]
    rw [foldlM_cons, first]
    apply ih nodup
    · intro j hj
      obtain ⟨c, hc, ec, fc⟩ := full j (by simp [hj])
      refine ⟨c, hc, ec, ?_⟩
      have other : hash j ≠ hash i := fun same => by
        have ji := apart j (by simp [hj]) i (by simp) same
        exact absent (ji ▸ hj)
      rw [update_of_ne other, fc]
    · exact fun a ha b hb => apart a (by simp [ha]) b (by simp [hb])

/- With the given handles in the contexts the rehash succeeds: contexts of different
slots differ already in the low bits. -/
theorem rehash_hashed (h : Hashed s given) (full : ∀ i < s.slotSize, s.slot i ≠ none)
    (stored : ∀ i ctx, s.slot i = some ctx →
      handleOf ctx % (s.slotSize * 2) = given ctx % (s.slotSize * 2))
    (room : s.slotSize ≠ 2 ^ 24) :
    ∃ s', rehash handleOf s = .ok s' ∧ Hashed s' given ∧ s'.slotSize = s.slotSize * 2 ∧
      s'.handleIndex = s.handleIndex ∧ s'.harbor = s.harbor ∧
      (∀ c, s'.Holds c ↔ s.Holds c) ∧ ∃ j < s'.slotSize, s'.slot j = none := by
  have contexts : ∀ i, i < s.slotSize → ∃ ctx, s.slot i = some ctx :=
    fun i hi => ne_none_iff_exists'.mp (full i hi)
  obtain ⟨new, fold⟩ : ∃ new, (List.range s.slotSize).foldlM (rehashOne handleOf s)
      (fun _ => none) = .ok new := by
    let hash : Nat → Nat := fun i => given ((s.slot i).getD 0) % (s.slotSize * 2)
    apply rehash_fold_ok _ nodup_range hash
    · intro i hi
      obtain ⟨ctx, here⟩ := contexts i (mem_range.mp hi)
      refine ⟨ctx, here, ?_, rfl⟩
      rw [h.mask_double, stored i ctx here]
      simp [hash, here]
    · intro i hi j hj same
      obtain ⟨c, hc⟩ := contexts i (mem_range.mp hi)
      obtain ⟨d, hd⟩ := contexts j (mem_range.mp hj)
      have low := congrArg (fun x => x % s.slotSize) same
      simp only [hash, hc, hd, getD_some, Nat.mod_mul_right_mod] at low
      rw [← (h.slots i c hc).2, ← (h.slots j d hd).2, low]
  have moved : rehash handleOf s = .ok { s with slot := new, slotSize := s.slotSize * 2 } := by
    simp only [rehash, fold]; rfl
  obtain ⟨new', eq, contents⟩ := rehash_ok moved
  obtain rfl : new = new' := congrArg HandleStorage.slot eq
  obtain ⟨k, low, high, size⟩ := h.size
  have exact : ∀ j ctx, new j = some ctx →
      s.slot (given ctx % s.slotSize) = some ctx ∧ given ctx % (s.slotSize * 2) = j := by
    intro j ctx here
    obtain ⟨i, -, old, hash⟩ := (contents j ctx).mp here
    rw [h.mask_double, stored i ctx old] at hash
    exact ⟨by rw [(h.slots i ctx old).2]; exact old, hash⟩
  refine ⟨_, moved, ⟨⟨k + 1, by omega, ?_, ?_⟩, h.harbor, h.index, ?_⟩, rfl, rfl, rfl, ?_, ?_⟩
  · have less : k ≠ 24 := fun eq => room (by rw [size, eq])
    omega
  · simp [size, Nat.pow_succ]
  · intro j ctx here
    obtain ⟨-, rfl⟩ := exact j ctx here
    exact ⟨Nat.mod_lt _ (Nat.mul_pos h.positive (by decide)), rfl⟩
  · exact (rehash_tidy h.tidy ⟨k, size⟩ moved).2
  · obtain ⟨ctx, here⟩ := contexts 0 h.positive
    have only : ∀ j other, j % s.slotSize = 0 → new j = some other →
        given ctx % (s.slotSize * 2) = j := by
      intro j other zero taken
      obtain ⟨old, place⟩ := exact j other taken
      rw [← Nat.mod_mul_right_mod (given other) s.slotSize 2, place, zero, here] at old
      cases some.inj old
      exact place
    by_cases lower : given ctx % (s.slotSize * 2) = 0
    · refine ⟨s.slotSize, by have := h.positive; show _ < s.slotSize * 2; omega, ?_⟩
      cases taken : new s.slotSize with
      | none => exact taken
      | some other =>
        have same := only _ other (Nat.mod_self _) taken
        have := h.positive
        omega
    · refine ⟨0, Nat.mul_pos h.positive (by decide), ?_⟩
      cases taken : new 0 with
      | none => exact taken
      | some other => exact absurd (only 0 other (Nat.zero_mod _) taken) lower

/- The scan chooses the handle; the rest of a successful round only records it. -/
theorem scan_hashed (handleOf : Nat → Nat) {raw : Nat} (rounds : Nat) (h : Hashed s given)
    (fresh : ¬ s.Holds ctx) (found : s.scan = some raw) :
    ∃ s', registerLoop handleOf ctx (rounds + 1) s = .ok (s', raw + s.harbor) ∧
      Hashed s' (update given ctx (raw + s.harbor)) ∧
      s'.handleIndex = raw + 1 ∧ s'.harbor = s.harbor ∧ s'.slotSize = s.slotSize ∧
      ∃ i < s.slotSize, raw = (i + s.handleIndex) % 2 ^ 24 := by
  obtain ⟨free, i, inside, rfl⟩ := scan_some found
  rw [candidate_eq] at free found ⊢
  have small : (i + s.handleIndex) % 2 ^ 24 < 2 ^ 24 := Nat.mod_lt _ (by decide)
  obtain ⟨id, harbor⟩ := h.harbor
  have combined : (i + s.handleIndex) % 2 ^ 24 ||| s.harbor =
      (i + s.handleIndex) % 2 ^ 24 + s.harbor := by
    rw [harbor, or_high small]
  have aligned : s.slotSize ∣ s.harbor := harbor ▸ h.divides.mul_left id
  refine ⟨{ s with
      slot := update s.slot ((i + s.handleIndex) % 2 ^ 24 &&& (s.slotSize - 1)) (some ctx)
      handleIndex := (i + s.handleIndex) % 2 ^ 24 + 1 },
    by simp only [registerLoop, found, combined], ⟨h.size, h.harbor, ?_, ?_⟩,
    rfl, rfl, rfl, i, inside, rfl⟩
  · show (i + s.handleIndex) % 2 ^ 24 + 1 ≤ 2 ^ 24
    omega
  · intro j c here
    dsimp only at here ⊢
    rw [h.mask] at here
    by_cases eq : j = (i + s.handleIndex) % 2 ^ 24 % s.slotSize
    · subst eq
      rw [update_self] at here
      cases some.inj here
      rw [update_self]
      obtain ⟨m, multiple⟩ := aligned
      exact ⟨Nat.mod_lt _ h.positive, by rw [multiple, Nat.add_mul_mod_self_left]⟩
    · rw [update_of_ne eq] at here
      have other : c ≠ ctx := fun same => fresh ⟨j, same ▸ here⟩
      rw [update_of_ne other]
      exact h.slots j c here

/-- Registering, for any content of the handle fields that agrees with the given
handles whenever the table is full. The only assertion that can stop it is the one
that limits the table to the mask. -/
theorem register_hashed (h : Hashed s given) (fresh : ¬ s.Holds ctx)
    (stored : (∀ i < s.slotSize, s.slot i ≠ none) → ∀ i c, s.slot i = some c →
      handleOf c % (s.slotSize * 2) = given c % (s.slotSize * 2)) :
    (∃ s' raw, handleRegister handleOf s ctx = .ok (s', raw + s.harbor) ∧
      Hashed s' (update given ctx (raw + s.harbor)) ∧
      s'.handleIndex = raw + 1 ∧ s'.harbor = s.harbor ∧
      ∃ i < 2 ^ 24, raw = (i + s.handleIndex) % 2 ^ 24) ∨
    handleRegister handleOf s ctx = .error .tableFull := by
  have bounded : ∀ {t : HandleStorage}, Hashed t given → t.slotSize ≤ 2 ^ 24 :=
    fun ht => Nat.le_of_dvd (by decide) ht.divides
  cases found : s.scan with
  | some raw =>
    left
    obtain ⟨s', done, hashed, index, harbor, -, i, inside, eq⟩ :=
      scan_hashed handleOf 31 h fresh found
    exact ⟨s', raw, done, hashed, index, harbor, i, Nat.lt_of_lt_of_le inside (bounded h), eq⟩
  | none =>
    have full := scan_none h found
    by_cases room : s.slotSize = 2 ^ 24
    · right
      have beyond : ¬ s.slotSize * 2 - 1 ≤ handleMask := by rw [room]; decide
      rw [handleRegister, registerLoop]
      simp only [found, beyond, if_false]
    · left
      obtain ⟨t, moved, hashed, size, index, harbor, holds, j, inside, free⟩ :=
        rehash_hashed h full (stored full) room
      have fits : s.slotSize * 2 - 1 ≤ handleMask := by
        have limit := bounded hashed
        rw [size] at limit
        have mask : handleMask = 2 ^ 24 - 1 := by decide
        omega
      cases again : t.scan with
      | none => exact absurd free (scan_none hashed again j inside)
      | some raw =>
        obtain ⟨s', done, hashed', index', harbor', -, i, less, eq⟩ :=
          scan_hashed handleOf 30 hashed (fun held => fresh ((holds ctx).mp held)) again
        rw [harbor] at done hashed' harbor'
        rw [index] at eq
        refine ⟨s', raw, ?_, hashed', index', harbor', i,
          Nat.lt_of_lt_of_le less (bounded hashed), eq⟩
        rw [handleRegister, registerLoop]
        simp only [found, fits, if_true, moved]
        exact done

end Skynet.Handle
