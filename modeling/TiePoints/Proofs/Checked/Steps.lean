import TiePoints.Block

/-!
# Checked steps

The library breaks off where the position of a sample is no word or names no
sample.  Other sums and products it takes for words because the extent of a
block has been checked, and other accesses for accesses inside a table.  Here
each such step is checked, whatever has been checked before: a sum or product
beyond the last position, a difference below zero and an access outside a table
stop the computation at once.  A query that is written in these steps and agrees
with the library's has therefore made none of them.
-/

namespace TiePoints

/-- Why a computation in checked steps ends without a result. -/
inductive Stop (α : Type)
  | sum (a b : Nat)
  | product (a b : Nat)
  | difference (a b : Nat)
  | access (position size : Nat)
  /-- The query itself fails, as it does without checks. -/
  | failure (e : Error α)

abbrev Checked (α β : Type) := Except (Stop α) β

namespace Checked

variable {α β : Type}

def ofResult (x : Except (Error α) β) : Checked α β := x.mapError .failure

@[simp] theorem ofResult_ok (b : β) : ofResult (.ok b : Except (Error α) β) = .ok b := rfl

@[simp] theorem ofResult_error (e : Error α) :
    ofResult (.error e : Except (Error α) β) = .error (.failure e) := rfl

/-- The form that the map of a result takes in a sequence of steps. -/
theorem ofResult_map {γ : Type} (x : Except (Error α) β) (f : β → γ) :
    ofResult (x.map f) = ofResult x >>= fun b => pure (f b) := by
  cases x <;> rfl

/-! ## Positions -/

def add (a b : Nat) : Checked α Nat :=
  if a + b < Index.limit then .ok (a + b) else .error (.sum a b)

def mul (a b : Nat) : Checked α Nat :=
  if a * b < Index.limit then .ok (a * b) else .error (.product a b)

def sub (a b : Nat) : Checked α Nat :=
  if b ≤ a then .ok (a - b) else .error (.difference a b)

theorem add_eq {a b : Nat} (h : a + b < Index.limit) : (add a b : Checked α Nat) = .ok (a + b) :=
  if_pos h

theorem mul_eq {a b : Nat} (h : a * b < Index.limit) : (mul a b : Checked α Nat) = .ok (a * b) :=
  if_pos h

theorem sub_eq {a b : Nat} (h : b ≤ a) : (sub a b : Checked α Nat) = .ok (a - b) :=
  if_pos h

/-! ## Tables -/

def get (xs : Array β) (p : Nat) : Checked α β :=
  match xs[p]? with
  | some x => .ok x
  | none => .error (.access p xs.size)

def set (xs : Array β) (p : Nat) (x : β) : Checked α (Array β) :=
  if p < xs.size then .ok (xs.setIfInBounds p x) else .error (.access p xs.size)

def slice (xs : Array β) (start stop : Nat) : Checked α (Array β) :=
  if start ≤ stop ∧ stop ≤ xs.size then .ok (xs.extract start stop)
  else .error (.access stop xs.size)

theorem get_eq {xs : Array β} {p : Nat} {x : β} (h : xs[p]? = some x) :
    (get xs p : Checked α β) = .ok x := by
  simp only [get, h]

theorem set_eq {xs : Array β} {p : Nat} (h : p < xs.size) (x : β) :
    (set xs p x : Checked α (Array β)) = .ok (xs.setIfInBounds p x) :=
  if_pos h

theorem slice_eq {xs : Array β} {start stop : Nat} (h : start ≤ stop) (hstop : stop ≤ xs.size) :
    (slice xs start stop : Checked α (Array β)) = .ok (xs.extract start stop) :=
  if_pos ⟨h, hstop⟩

/-- Makes the writes in order and stops at the first that fails or lies outside the buffer. -/
def write : List (Nat × Checked α β) → Array β → Checked α (Array β)
  | [], buffer => .ok buffer
  | (p, value) :: rest, buffer => do write rest (← set buffer p (← value))

/-! ## Agreement of repeated steps -/

/-- Writes inside the buffer end as they do without checks. -/
theorem write_eq {ws : List (Nat × Except (Error α) β)} {buffer : Array β}
    (h : ∀ w ∈ ws, w.1 < buffer.size) :
    write (ws.map fun w => (w.1, ofResult w.2)) buffer =
      ofResult (Filled.write ws buffer).result := by
  fun_induction Filled.write ws buffer with
  | case1 buffer => rfl
  | case2 p v rest buffer ih =>
      have hp : p < buffer.size := h _ List.mem_cons_self
      have hrest : ∀ w ∈ rest, w.1 < (buffer.setIfInBounds p v).size := by
        intro w hw
        rw [Array.size_setIfInBounds]
        exact h w (List.mem_cons_of_mem _ hw)
      rw [List.map_cons, write, ← ih hrest]
      simp only [ofResult_ok, bind, Except.bind, set_eq hp]
  | case3 => rfl

/-- A run of steps none of which fails. -/
theorem mapM_ok {γ : Type} {f : β → Checked α γ} {v : β → γ} {xs : List β}
    (h : ∀ x ∈ xs, f x = .ok (v x)) : xs.mapM f = .ok (xs.map v) := by
  induction xs with
  | nil => rfl
  | cons x xs ih =>
      rw [List.mapM_cons, h x List.mem_cons_self,
        ih fun y hy => h y (List.mem_cons_of_mem x hy)]
      rfl

theorem mapM_eq {γ : Type} {f : β → Except (Error α) γ} {f' : β → Checked α γ} {xs : List β}
    (h : ∀ x ∈ xs, f' x = ofResult (f x)) : xs.mapM f' = ofResult (xs.mapM f) := by
  induction xs with
  | nil => rfl
  | cons x xs ih =>
      have hx := h x List.mem_cons_self
      have hxs := ih fun y hy => h y (List.mem_cons_of_mem x hy)
      rw [List.mapM_cons, List.mapM_cons, hx, hxs]
      cases f x with
      | error e => rfl
      | ok y => cases xs.mapM f <;> rfl

theorem foldlM_eq {γ : Type} {f : γ → β → Except (Error α) γ} {f' : γ → β → Checked α γ}
    {xs : List β} (h : ∀ x ∈ xs, ∀ s, f' s x = ofResult (f s x)) (s : γ) :
    xs.foldlM f' s = ofResult (xs.foldlM f s) := by
  induction xs generalizing s with
  | nil => rfl
  | cons x xs ih =>
      rw [List.foldlM_cons, List.foldlM_cons, h x List.mem_cons_self s]
      cases f s x with
      | error e => rfl
      | ok t => exact ih (fun y hy => h y (List.mem_cons_of_mem x hy)) t

end Checked

end TiePoints
