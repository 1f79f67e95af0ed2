import Skynet.Netpack.Model

/-! What the stream of a connection means: packets of a two-byte length and that many bytes,
and a rest that is no whole packet. The queue keeps the rest of each connection. -/
namespace Skynet.LuaNetpack
open Base List Function

def parse : List UInt8 → List (List UInt8) × List UInt8
  | b₀ :: b₁ :: rest =>
    let n := b₀.toNat * 256 + b₁.toNat
    if n ≤ rest.length then
      let later := parse (rest.drop n)
      (rest.take n :: later.1, later.2)
    else ([], b₀ :: b₁ :: rest)
  | l => ([], l)
termination_by l => l.length
decreasing_by
  simp only [List.length_drop, List.length_cons]
  omega

theorem parse_nil : parse [] = ([], []) := by simp [parse]

theorem parse_one (b : UInt8) : parse [b] = ([], [b]) := by simp [parse]

variable {b₀ b₁ : UInt8} {rest buffer : List UInt8} {fd : Int}

theorem parse_short (short : rest.length < b₀.toNat * 256 + b₁.toNat) :
    parse (b₀ :: b₁ :: rest) = ([], b₀ :: b₁ :: rest) := by
  rw [parse, if_neg (Nat.not_le.mpr short)]

theorem parse_whole (whole : b₀.toNat * 256 + b₁.toNat ≤ rest.length) :
    parse (b₀ :: b₁ :: rest) =
      (rest.take (b₀.toNat * 256 + b₁.toNat) ::
        (parse (rest.drop (b₀.toNat * 256 + b₁.toNat))).1,
      (parse (rest.drop (b₀.toNat * 256 + b₁.toNat))).2) := by
  rw [parse, if_pos whole]

theorem parse_append (l more : List UInt8) :
    parse (l ++ more) =
      ((parse l).1 ++ (parse ((parse l).2 ++ more)).1, (parse ((parse l).2 ++ more)).2) := by
  fun_induction parse l with
  | case1 b₀ b₁ rest n whole later ih =>
    have longer : n ≤ (rest ++ more).length := by
      rw [length_append]
      omega
    rw [cons_append, cons_append, parse_whole longer,
      take_append_of_le_length whole, drop_append_of_le_length whole, ih]
    rfl
  | case2 b₀ b₁ rest n short => rfl
  | case3 l no => rfl

theorem readSize_eq (b₀ b₁ : UInt8) : readSize b₀ b₁ = b₀.toNat * 256 + b₁.toNat := by
  have below : b₁.toNat < 2 ^ 8 := b₁.toNat_lt
  rw [readSize, ← Nat.shiftLeft_add_eq_or_of_lt below, Nat.shiftLeft_eq]

theorem parse_readSize (whole : readSize b₀ b₁ ≤ rest.length) :
    parse (b₀ :: b₁ :: rest) =
      (rest.take (readSize b₀ b₁) :: (parse (rest.drop (readSize b₀ b₁))).1,
      (parse (rest.drop (readSize b₀ b₁))).2) := by
  rw [readSize_eq] at whole ⊢
  exact parse_whole whole

/-- What the queue keeps of a connection with this rest. -/
inductive Keeps (fd : Int) : Option Uncomplete → List UInt8 → Prop
  | nothing : Keeps fd none []
  | header (b : UInt8) : Keeps fd (some (headerOnly fd b)) [b]
  | body (b₀ b₁ : UInt8) (rest : List UInt8) (header : Nat)
      (short : rest.length < b₀.toNat * 256 + b₁.toNat) :
      Keeps fd (some ⟨⟨fd, b₀.toNat * 256 + b₁.toNat, rest⟩, rest.length, header⟩)
        (b₀ :: b₁ :: rest)

theorem keeps_none {l : List UInt8} (keeps : Keeps fd none l) : l = [] := by
  cases keeps
  rfl

theorem keeps_nil {uc : Option Uncomplete} (keeps : Keeps fd uc []) : uc = none := by
  cases keeps
  rfl

/-- The queue keeps the rest of every connection, and these packets. -/
structure Shows (q : Option Queue) (rest : Int → List UInt8) (queued : List Netpack) : Prop where
  ring : (getQueue q).ring.Sound
  distinct : Distinct Uncomplete.id (getQueue q).hash
  items : (getQueue q).ring.items = queued
  kept : ∀ fd, Keeps fd (lookup Uncomplete.id hashFd (getQueue q).hash fd) (rest fd)

theorem shows_nil : Shows none (fun _ => []) [] :=
  ⟨ring_empty_sound (by decide), fun _ => nodup_nil, ring_empty_items _, fun _ => .nothing⟩

section Queue
variable {q : Option Queue} {rest : Int → List UInt8} {queued : List Netpack} {fd : Int}
  (shown : Shows q rest queued)
include shown

theorem Shows.find_none (absent : findUncomplete q fd = none) : rest fd = [] := by
  have kept := shown.kept fd
  have none' : lookup Uncomplete.id hashFd (getQueue q).hash fd = none := by
    cases q with
    | none => rfl
    | some q => exact lookup_none (Option.map_eq_none_iff.mp absent)
  rw [none'] at kept
  exact keeps_none kept

variable {uc : Uncomplete}

theorem Shows.find_some {q' : Queue} (found : findUncomplete q fd = some (uc, q')) :
    Keeps fd (some uc) (rest fd) ∧ Shows (some q') (update rest fd []) queued := by
  cases q with
  | none => cases found
  | some q =>
    obtain ⟨⟨uc', hash⟩, taken, pair⟩ := Option.map_eq_some_iff.mp found
    obtain ⟨rfl, rfl⟩ := Prod.mk.inj pair
    obtain ⟨-, here, distinct, gone, others⟩ := takeBucket_spec shown.distinct taken
    refine ⟨here ▸ shown.kept fd, shown.ring, distinct, shown.items, fun fd' => ?_⟩
    by_cases same : fd' = fd
    · subst same
      rw [update_self]
      exact gone.symm ▸ Keeps.nothing
    · rw [update_of_ne same]
      exact (others fd' same).symm ▸ shown.kept fd'

theorem Shows.save {l : List UInt8} (empty : rest fd = []) (own : uc.id = fd)
    (keeps : Keeps fd (some uc) l) :
    Shows (some (saveUncomplete q uc)) (update rest fd l) queued := by
  have absent : lookup Uncomplete.id hashFd (getQueue q).hash uc.id = none := by
    have kept := shown.kept fd
    rw [empty] at kept
    rw [own]
    exact keeps_nil kept
  obtain ⟨distinct, here, others⟩ := putBucket_spec shown.distinct absent
  refine ⟨shown.ring, distinct, shown.items, fun fd' => ?_⟩
  by_cases same : fd' = fd
  · subst same
    rw [update_self]
    rw [own] at here
    exact here.symm ▸ keeps
  · rw [update_of_ne same]
    exact (others fd' (own ▸ same)).symm ▸ shown.kept fd'

theorem Shows.push (fd : Int) (buffer : List UInt8) (size : Nat) :
    Shows (some (pushData q fd buffer size)) rest
      (queued ++ [⟨fd, size, buffer.take size⟩]) := by
  have larger : ∀ cap, 0 < cap → cap < expandQueue cap := fun cap _ =>
    Nat.lt_add_of_pos_right (by decide)
  obtain ⟨ring, items⟩ := ring_push larger shown.ring ⟨fd, size, buffer.take size⟩
  exact ⟨ring, shown.distinct, items.trans (by rw [shown.items]), shown.kept⟩

end Queue

def packet (fd : Int) (payload : List UInt8) : Netpack := ⟨fd, payload.length, payload⟩

theorem keeps_started (short : buffer.length < readSize b₀ b₁) :
    Keeps fd (some (started fd (readSize b₀ b₁) buffer)) (b₀ :: b₁ :: buffer) := by
  rw [readSize_eq] at short ⊢
  have copied : copyAt [] 0 buffer = buffer := by simp [copyAt]
  rw [started, copied]
  exact .body b₀ b₁ buffer 0 short

theorem pushMore_spec {q : Option Queue} {rest : Int → List UInt8} {queued : List Netpack}
    (shown : Shows q rest queued) (empty : rest fd = []) (some' : buffer ≠ []) :
    ∃ q', pushMore q fd buffer = .ok q' ∧
      Shows q' (update rest fd (parse buffer).2)
        (queued ++ (parse buffer).1.map (packet fd)) := by
  fun_induction pushMore q fd buffer generalizing queued with
  | case1 q => exact absurd rfl some'
  | case2 q b =>
    refine ⟨_, rfl, ?_⟩
    rw [parse_one, map_nil, append_nil]
    exact shown.save empty rfl (.header b)
  | case3 q b₀ b₁ buffer packSize =>
    rename_i short
    refine ⟨_, rfl, ?_⟩
    rw [parse_short (readSize_eq b₀ b₁ ▸ short), map_nil, append_nil]
    exact shown.save empty rfl (keeps_started short)
  | case4 q b₀ b₁ buffer packSize whole q' later more =>
    rename_i ih
    have pushed := shown.push fd buffer packSize
    obtain ⟨q'', taken, shown'⟩ := ih pushed (ne_nil_of_length_pos more)
    refine ⟨q'', taken, ?_⟩
    rw [parse_readSize (Nat.le_of_not_lt whole)]
    simpa [packet, length_take, Nat.min_eq_left (Nat.le_of_not_lt whole), packSize, later]
      using shown'
  | case5 q b₀ b₁ buffer packSize whole q' later =>
    rename_i last
    have pushed := shown.push fd buffer packSize
    have nothing : later = [] := eq_nil_of_length_eq_zero (Nat.eq_zero_of_not_pos last)
    refine ⟨_, rfl, ?_⟩
    rw [parse_readSize (Nat.le_of_not_lt whole)]
    have none' : buffer.drop (readSize b₀ b₁) = [] := nothing
    rw [none', parse_nil, ← empty, update_eq_self]
    simpa [packet, length_take, Nat.min_eq_left (Nat.le_of_not_lt whole), packSize] using pushed

end Skynet.LuaNetpack
