/-!
# First in, first out

Elements join a `Fifo` at its end and leave it at its front.  Joining costs what joins, leaving
costs what leaves, and the size is at hand.  `toList` shows the elements in order, and says what
every operation does:

    (q.append xs).toList = q.toList ++ xs                             (toList_append)
    q.pop? = some (a, r) → q.toList = a :: r.toList                   (toList_of_pop?)
    (q.split n).1 = q.toList.take n                                   (split_fst)
    (q.split n).2.toList = q.toList.drop n                            (toList_split_snd)
-/

namespace WebSocket

/-- Elements in the order in which they came. -/
structure Fifo (α : Type) where
  /-- The elements that came first. -/
  front : List α
  /-- The elements that came after those in front, the latest first. -/
  back : List α
  size : Nat
  size_eq : size = front.length + back.length
  back_eq_nil : front = [] → back = []
  deriving DecidableEq, Repr

namespace Fifo

variable {α : Type}

def toList (q : Fifo α) : List α :=
  match q.back with
  | [] => q.front
  | _ => q.front ++ q.back.reverse

/-- The elements `front` and, after them, those of `back` from its end. -/
def ofParts (front back : List α) (size : Nat) (h : size = front.length + back.length) : Fifo α :=
  match front with
  | [] => ⟨back.reverse, [], size, by simpa using h, fun _ => rfl⟩
  | a :: later => ⟨a :: later, back, size, h, nofun⟩

def ofList (xs : List α) : Fifo α := ofParts xs [] xs.length rfl

def empty : Fifo α := ofList []

def isEmpty (q : Fifo α) : Bool := q.front.isEmpty

def head? (q : Fifo α) : Option α := q.front.head?

/-- Whether some element passes a test; the latest are tried first. -/
def any (q : Fifo α) (p : α → Bool) : Bool := q.back.any p || q.front.any p

def append (q : Fifo α) (xs : List α) : Fifo α :=
  ofParts q.front (xs.reverseAux q.back) (q.size + xs.length) (by
    rw [q.size_eq, List.reverseAux_eq, List.length_append, List.length_reverse]
    omega)

def push (q : Fifo α) (a : α) : Fifo α := q.append [a]

def pop? (q : Fifo α) : Option (α × Fifo α) :=
  match h : q.front with
  | [] => none
  | a :: later =>
    some (a, ofParts later q.back (q.size - 1) (by
      rw [q.size_eq, h, List.length_cons]
      omega))

theorem toList_eq (q : Fifo α) : q.toList = q.front ++ q.back.reverse := by
  unfold toList
  split
  · rename_i h
    simp [h]
  · rfl

theorem size_eq_length (q : Fifo α) : q.size = q.toList.length := by
  rw [q.size_eq, toList_eq, List.length_append, List.length_reverse]

/-- The first `n` elements leave, or all if there are fewer. -/
def split (q : Fifo α) (n : Nat) : List α × Fifo α :=
  let first := q.front.take n
  if h : first.length = n then
    (first, ofParts (q.front.drop n) q.back (q.size - n) (by
      have enough : n ≤ q.front.length := by
        rw [← h]
        exact List.length_take_le' ..
      rw [q.size_eq, List.length_drop]
      omega))
  else
    let all := q.toList
    (all.take n, ofParts (all.drop n) [] (q.size - n) (by
      rw [q.size_eq_length, List.length_drop]
      rfl))

/-! ## Lemmas -/

@[simp] theorem toList_ofParts (front back : List α) (size : Nat)
    (h : size = front.length + back.length) :
    (ofParts front back size h).toList = front ++ back.reverse := by
  unfold ofParts
  split <;> simp [toList_eq]

@[simp] theorem toList_ofList (xs : List α) : (ofList xs).toList = xs := by simp [ofList]

@[simp] theorem toList_empty : (empty : Fifo α).toList = [] := by simp [empty]

@[simp] theorem toList_append (q : Fifo α) (xs : List α) :
    (q.append xs).toList = q.toList ++ xs := by
  rw [append, toList_ofParts, toList_eq, List.reverseAux_eq]
  simp

@[simp] theorem toList_push (q : Fifo α) (a : α) : (q.push a).toList = q.toList ++ [a] :=
  toList_append q [a]

theorem isEmpty_iff {q : Fifo α} : q.isEmpty = true ↔ q.toList = [] := by
  rw [isEmpty, List.isEmpty_iff, toList_eq]
  constructor
  · intro h
    simp [h, q.back_eq_nil h]
  · intro h
    exact (List.append_eq_nil_iff.mp h).1

theorem head?_eq (q : Fifo α) : q.head? = q.toList.head? := by
  unfold head?
  cases h : q.front with
  | nil => rw [toList_eq, h, q.back_eq_nil h]; rfl
  | cons a later => rw [toList_eq, h]; rfl

theorem toList_of_pop? {q r : Fifo α} {a : α} (h : q.pop? = some (a, r)) :
    q.toList = a :: r.toList := by
  unfold pop? at h
  split at h
  · simp at h
  · rename_i later hfront
    simp only [Option.some.injEq, Prod.mk.injEq] at h
    obtain ⟨rfl, rfl⟩ := h
    rw [toList_ofParts, toList_eq, hfront, List.cons_append]

theorem pop?_eq_none_iff {q : Fifo α} : q.pop? = none ↔ q.toList = [] := by
  rw [← isEmpty_iff, isEmpty, List.isEmpty_iff]
  unfold pop?
  split <;> simp_all

@[simp] theorem split_fst (q : Fifo α) (n : Nat) : (q.split n).1 = q.toList.take n := by
  unfold split
  dsimp only
  split
  · rename_i h
    have enough : n ≤ q.front.length := by
      rw [← h]
      exact List.length_take_le' ..
    rw [toList_eq, List.take_append_of_le_length enough]
  · rfl

@[simp] theorem toList_split_snd (q : Fifo α) (n : Nat) :
    (q.split n).2.toList = q.toList.drop n := by
  unfold split
  dsimp only
  split
  · rename_i h
    have enough : n ≤ q.front.length := by
      rw [← h]
      exact List.length_take_le' ..
    rw [toList_ofParts, toList_eq, List.drop_append_of_le_length enough]
  · simp

end Fifo

end WebSocket
