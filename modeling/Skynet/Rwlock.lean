import Skynet.Base.Table
import Skynet.Base.Total

/-! The read-write lock of rwlock.h between any number of threads. A step is one load or one atomic
operation of one thread. -/
namespace Skynet.Rwlock

open Base Function

/-- What a thread does next. -/
inductive Pc where
  | outside
  | wait
  | add
  | check
  | back
  | reading
  | exchange
  | drain
  | writing
  deriving DecidableEq, Repr

structure Lock (T : Type) where
  write : Bool
  read : Int
  pc : T → Pc

def rwlockInit (T : Type) : Lock T := ⟨false, 0, fun _ => .outside⟩

variable {T : Type} [DecidableEq T]

/- The choice is what a thread outside takes the lock for. -/
def step (lock : Lock T) (turn : T × Bool) : Lock T :=
  let (t, writes) := turn
  let go := update lock.pc t
  match lock.pc t with
  | .outside => { lock with pc := go (if writes then .exchange else .wait) }
  | .wait => { lock with pc := go (if lock.write then .wait else .add) }
  | .add => { lock with read := lock.read + 1, pc := go .check }
  | .check => { lock with pc := go (if lock.write then .back else .reading) }
  | .back => { lock with read := lock.read - 1, pc := go .wait }
  | .reading => { lock with read := lock.read - 1, pc := go .outside }
  | .exchange => { lock with write := true, pc := go (if lock.write then .exchange else .drain) }
  | .drain => { lock with pc := go (if lock.read = 0 then .writing else .drain) }
  | .writing => { lock with write := false, pc := go .outside }

/-- The readers inside, those that have yet to check the flag and those that back out. -/
def Pc.counted : Pc → Nat
  | .check | .back | .reading => 1
  | _ => 0

def Pc.owns : Pc → Nat
  | .drain | .writing => 1
  | _ => 0

variable [Fintype T] {lock : Lock T} {t : T} {p : Pc} {write : Bool} {read : Int}

structure Inv (lock : Lock T) : Prop where
  readers : lock.read = total Pc.counted lock.pc
  owner : total Pc.owns lock.pc = lock.write.toNat
  apart : ∀ a b, lock.pc a = .writing → lock.pc b ≠ .reading

theorem Inv.move (inv : Inv lock) (readers : read + (lock.pc t).counted = lock.read + p.counted)
    (owner : write.toNat + (lock.pc t).owns = lock.write.toNat + p.owns)
    (reads : p = .reading → lock.write = false) (writes : p = .writing → lock.read = 0) :
    Inv ⟨write, read, update lock.pc t p⟩ := by
  have counted := total_update Pc.counted lock.pc t p
  have owned := total_update Pc.owns lock.pc t p
  have before := inv.readers
  have flag := inv.owner
  refine ⟨?_, ?_, ?_⟩
  · dsimp only
    omega
  · dsimp only
    omega
  · intro a b writing reading
    rcases update_iff.mp writing with ⟨rfl, rfl⟩ | ⟨-, held⟩
    · rcases update_iff.mp reading with ⟨rfl, same⟩ | ⟨-, inside⟩
      · cases same
      · have one := weight_le_total Pc.counted lock.pc b
        rw [inside] at one
        have none := writes rfl
        simp only [Pc.counted] at one
        omega
    · rcases update_iff.mp reading with ⟨rfl, rfl⟩ | ⟨-, inside⟩
      · have one := weight_le_total Pc.owns lock.pc a
        rw [held, flag, reads rfl] at one
        cases one
      · exact inv.apart a b held inside

theorem step_inv (inv : Inv lock) (turn : T × Bool) : Inv (step lock turn) := by
  obtain ⟨t, writes⟩ := turn
  have owner := weight_le_total Pc.owns lock.pc t
  rw [inv.owner] at owner
  unfold step
  dsimp only
  split <;> rename_i old
  all_goals
    apply inv.move
    all_goals (try split) <;> cases flag : lock.write <;> simp_all [Pc.counted, Pc.owns]

theorem Inv.alone {a b : T} (inv : Inv lock) (writing : lock.pc a = .writing) (other : b ≠ a) :
    lock.pc b ≠ .writing := by
  intro second
  have without := total_update Pc.owns lock.pc a .outside
  have one := weight_le_total Pc.owns (update lock.pc a .outside) b
  rw [update_of_ne other, second] at one
  rw [inv.owner, writing] at without
  simp only [Pc.owns] at one without
  have := lock.write.toNat_le
  omega

def run (turns : List (T × Bool)) : Lock T := turns.foldl step (rwlockInit T)

theorem run_inv (turns : List (T × Bool)) : Inv (run turns) := by
  refine List.foldlRecOn turns step ⟨?_, ?_, nofun⟩ fun lock inv turn _ => step_inv inv turn
  · exact (congrArg Int.ofNat (total_of_zero fun _ => rfl)).symm
  · exact total_of_zero fun _ => rfl

theorem rwlock_exclusion (turns : List (T × Bool)) :
    (∀ a b, (run turns).pc a = .writing → b ≠ a →
      (run turns).pc b ≠ .writing ∧ (run turns).pc b ≠ .reading) ∧
    (run turns).read = total Pc.counted (run turns).pc := by
  have inv := run_inv turns
  exact ⟨fun a b writing other => ⟨inv.alone writing other, inv.apart a b writing⟩, inv.readers⟩

end Skynet.Rwlock
