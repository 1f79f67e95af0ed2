import Skynet.Base.LittleEndian

/-! op_reply of lua-mongo.c on any string. Pointers are offsets in the reply. -/
namespace Skynet.Mongo
open Base List

/- A read outside the reply, and a loop that has not ended. -/
inductive Fault where
  | outside
  | running
  deriving DecidableEq

/- What is returned; luaL_error is `invalid`. `docs` are the entries of the result table, which
is filled before the number of documents is compared. -/
inductive Reply where
  | short
  | failure (id doc : Int)
  | mismatch (id : Int) (docs : List Int)
  | invalid
  | documents (id : Int) (docs : List Int) (first : Option Int) (cursor : Option (List UInt8))
      (starting : Int)
  deriving DecidableEq

def Reply.pointers : Reply → List Int
  | .short | .invalid => []
  | .failure _ doc => [doc]
  | .mismatch _ docs => docs
  | .documents _ docs first _ _ => docs ++ first.toList

def int32 (data : List UInt8) (start : Nat) : Int :=
  signed 32 (leValue ((data.drop start).take 4))

def getLength (data : List UInt8) (doc : Int) : Except Fault Int :=
  if 0 ≤ doc ∧ doc + 4 ≤ data.length then .ok (int32 data doc.toNat) else .error .outside

/- The loop over the documents; what is left of the size is returned with them. -/
def loop (data : List UInt8) : Nat → Int → Int → List Int → Except Fault (List Int × Int)
  | 0, _, sz, docs => if 4 < sz then .error .running else .ok (docs, sz)
  | fuel + 1, doc, sz, docs =>
    if 4 < sz then do
      let len ← getLength data doc
      loop data fuel (doc + len) (signed 32 (sz - len)) (docs ++ [doc])
    else .ok (docs, sz)

def finish (data : List UInt8) (docs : List Int) (sz : Int) : Reply :=
  let cursor := (data.drop 16).take 8
  if sz ≠ 0 then .invalid
  else .documents (int32 data 4) docs (if int32 data 28 = 0 then none else some 32)
    (if cursor = List.replicate 8 0 then none else some cursor) (int32 data 24)

def queryFailure (data : List UInt8) : Prop := int32 data 12 / 2 % 2 = 1

instance (data : List UInt8) : Decidable (queryFailure data) := Int.instDecidableEq ..

/- The fields of the head are read after its size is checked. -/
def opReply (fuel : Nat) (data : List UInt8) (table : Bool) : Except Fault Reply :=
  let sz := signed 32 (data.length - 32)
  if data.length < 32 then .ok .short
  else if queryFailure data then .ok (.failure (int32 data 4) 32)
  else if table then
    (loop data fuel 32 sz []).map fun (docs, sz) =>
      if docs.length ≠ int32 data 28 then .mismatch (int32 data 4) docs else finish data docs sz
  else if 4 ≤ sz then
    (getLength data 32).map fun len => finish data [] (signed 32 (sz - len))
  else .ok (finish data [] sz)

/-- A document with its length inside the reply. -/
def Whole (data : List UInt8) (doc : Int) : Prop :=
  ∃ len, getLength data doc = .ok len ∧ 5 ≤ len ∧ doc + len ≤ data.length

/-- Whole documents follow one another until at most four bytes are left. -/
inductive Documents (data : List UInt8) : Int → Prop where
  | rest {doc : Int} : data.length ≤ doc + 4 → Documents data doc
  | next {doc len : Int} : getLength data doc = .ok len → 5 ≤ len → doc + len ≤ data.length →
      Documents data (doc + len) → Documents data doc

variable {data : List UInt8}

theorem loop_whole (small : data.length < 0x80000000) {doc : Int} (body : Documents data doc)
    (fuel : Nat) (docs : List Int) (inside : 0 ≤ doc) (enough : data.length - doc ≤ fuel)
    (whole : ∀ d ∈ docs, Whole data d) :
    ∃ docs' sz, loop data fuel doc (data.length - doc) docs = .ok (docs', sz) ∧
      ∀ d ∈ docs', Whole data d := by
  induction body generalizing fuel docs with
  | rest few =>
    cases fuel <;> exact ⟨docs, _, if_neg (by omega), whole⟩
  | @next doc len found long fits _ ih =>
    obtain ⟨fuel, rfl⟩ : ∃ n, fuel = n + 1 := ⟨fuel - 1, by omega⟩
    have left : signed 32 (data.length - doc - len) = data.length - (doc + len) := by
      rw [signed_of_range (by decide) (by omega) (by omega)]
      omega
    rw [loop, if_pos (by omega), found]
    dsimp only [bind, Except.bind]
    rw [left]
    refine ih fuel _ (by omega) (by omega) ?_
    exact forall_mem_append.mpr ⟨whole, forall_mem_singleton.mpr ⟨len, found, long, fits⟩⟩

theorem Documents.first {doc : Int} (body : Documents data doc) (more : doc + 4 < data.length) :
    Whole data doc := by
  cases body with
  | rest few => omega
  | next found long fits _ => exact ⟨_, found, long, fits⟩

theorem finish_whole {docs : List Int} (whole : ∀ d ∈ docs, Whole data d) (sz : Int)
    (first : int32 data 28 ≠ 0 → Whole data 32) :
    ∀ d ∈ (finish data docs sz).pointers, Whole data d := by
  by_cases left : sz ≠ 0
  · simp [finish, left, Reply.pointers]
  · by_cases none' : int32 data 28 = 0
    · simpa [finish, left, Reply.pointers, none'] using whole
    · simpa [finish, left, Reply.pointers, none', or_imp, forall_and] using ⟨whole, first none'⟩

/- A head that announces so many documents, with no flags. -/
def head (number : UInt8) : List UInt8 := List.replicate 28 0 ++ [number, 0, 0, 0]

/- A document of length 0, one of a negative length and none at all. -/
end Skynet.Mongo
