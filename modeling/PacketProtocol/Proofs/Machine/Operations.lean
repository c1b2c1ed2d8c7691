import PacketProtocol.Payload.Decode
/-!
# Operations that trap

The rest of this library calculates with natural numbers and lists, where nothing can go wrong. A
machine has words of 64 bits, and traps on a sum that does not fit, a shift by too many places, an
index that is not there. Here are its operations, with `none` for a trap: a computation made of them
that has a value did not trap on the way.
-/

namespace PacketProtocol.Machine

open scoped Numerals

variable {α ε : Type}

/-! ## Lists -/

/-- The entry at an index. -/
def index (list : List α) (i : Nat) : Option α := list[i]?

/-- Another entry at an index. -/
def put (list : List α) (i : Nat) (a : α) : Option (List α) := if i < list.length then some (list.set i a) else none

/-- The entries from `start` on, up to `stop`. -/
def slice (list : List α) (start stop : Nat) : Option (List α) :=
  if start ≤ stop ∧ stop ≤ list.length then some ((list.take stop).drop start) else none

/-- Fills exactly `count` places. -/
def copy (count : Nat) (list : List α) : Option (List α) := if list.length = count then some list else none

/-- Cuts into pieces of a width that is not zero. -/
def chunks (width : Nat) (list : List α) : Option (List (List α)) :=
  if width = 0 then none else some (PayloadKind.pieces width list)

/-- Cuts into pieces of a width that is not zero, and leaves out a last piece that is too short. -/
def chunksExact (width : Nat) (list : List α) : Option (List (List α)) :=
  (chunks width list).map (List.filter fun piece => piece.length == width)

/-! ## Words -/

def add (bits a b : Nat) : Option Nat := if a + b < 2 ^ bits then some (a + b) else none

def sub (a b : Nat) : Option Nat := if b ≤ a then some (a - b) else none

def mul (bits a b : Nat) : Option Nat := if a * b < 2 ^ bits then some (a * b) else none

def quotient (a b : Nat) : Option Nat := if b = 0 then none else some (a / b)

def remainder (a b : Nat) : Option Nat := if b = 0 then none else some (a % b)

/-- What is shifted out on the left is lost; only the number of places can be wrong. -/
def shiftLeft (bits n places : Nat) : Option Nat := if places < bits then some ((n <<< places) % 2 ^ bits) else none

def shiftRight (bits n places : Nat) : Option Nat := if places < bits then some (n >>> places) else none

/-- A difference of words with a sign. -/
def subSigned (bits : Nat) (a b : Int) : Option Int :=
  if -2 ^ (bits - 1) ≤ a - b ∧ a - b < 2 ^ (bits - 1) then some (a - b) else none

theorem index_of_lt {list : List α} {i : Nat} (h : i < list.length) : index list i = some list[i] :=
  List.getElem?_eq_getElem h

theorem put_of_lt {list : List α} {i : Nat} (h : i < list.length) (a : α) : put list i a = some (list.set i a) :=
  if_pos h

theorem add_of_lt {bits a b : Nat} (h : a + b < 2 ^ bits) : add bits a b = some (a + b) := if_pos h

theorem sub_of_le {a b : Nat} (h : b ≤ a) : sub a b = some (a - b) := if_pos h

theorem mul_of_lt {bits a b : Nat} (h : a * b < 2 ^ bits) : mul bits a b = some (a * b) := if_pos h

theorem quotient_of_ne {a b : Nat} (h : b ≠ 0) : quotient a b = some (a / b) := if_neg h

theorem remainder_of_ne {a b : Nat} (h : b ≠ 0) : remainder a b = some (a % b) := if_neg h

theorem shiftLeft_of_lt {bits n places : Nat} (hplaces : places < bits) (hfits : n * 2 ^ places < 2 ^ bits) :
    shiftLeft bits n places = some (n * 2 ^ places) := by
  rw [shiftLeft, if_pos hplaces, Nat.shiftLeft_eq, Nat.mod_eq_of_lt hfits]

theorem shiftRight_of_lt {bits n places : Nat} (h : places < bits) :
    shiftRight bits n places = some (n / 2 ^ places) := by
  rw [shiftRight, if_pos h, Nat.shiftRight_eq_div_pow]

theorem chunks_of_ne {width : Nat} (h : width ≠ 0) (list : List α) :
    chunks width list = some (PayloadKind.pieces width list) := if_neg h

theorem length_of_mem_pieces {width : Nat} {list : List α} (h : list.length % width = 0) :
    ∀ piece ∈ PayloadKind.pieces width list, piece.length = width := by
  fun_induction PayloadKind.pieces width list with
  | case1 => nofun
  | case2 list hne ih =>
    have hpos := List.length_pos_iff.2 (show list ≠ [] by simp_all)
    have hle : width ≤ list.length := Nat.le_of_dvd hpos (Nat.dvd_of_mod_eq_zero h)
    have hrest : (list.drop width).length % width = 0 := by
      rw [List.length_drop, Nat.mod_eq_sub_mod hle] at *
      exact h
    intro piece hpiece
    obtain rfl | hpiece := List.mem_cons.1 hpiece
    · rw [List.length_take, Nat.min_eq_left hle]
    · exact ih hrest piece hpiece

/-- Pieces that come out even are all exact. -/
theorem chunksExact_of_mod {width : Nat} {list : List α} (hwidth : width ≠ 0) (h : list.length % width = 0) :
    chunksExact width list = some (PayloadKind.pieces width list) := by
  have hexact := length_of_mem_pieces h
  rw [chunksExact, chunks_of_ne hwidth, Option.map_some, List.filter_eq_self.2]
  simpa using hexact

/-! ## Outcomes without a trap -/

/-- A computation that gives a value, reports a fault, or traps. -/
abbrev Checked (ε : Type) := ExceptT ε Option

/-- A computation that did not trap. -/
def safe (outcome : Except ε α) : Checked ε α := ExceptT.mk (some outcome)

theorem pure_eq_safe (a : α) : (pure a : Checked ε α) = safe (.ok a) := rfl

@[simp]
theorem liftM_some (a : α) : (liftM (some a) : Checked ε α) = pure a := rfl

/-- Steps that do not trap make a computation that does not trap. -/
theorem safe_bind {β : Type} {outcome : Except ε α} {f : α → Checked ε β} {g : α → Except ε β}
    (h : ∀ a, outcome = .ok a → f a = safe (g a)) : (safe outcome >>= f) = safe (outcome >>= g) := by
  cases outcome with
  | error e => rfl
  | ok a => exact h a rfl

theorem safe_map {β : Type} (f : α → β) (outcome : Except ε α) : f <$> safe outcome = safe (f <$> outcome) := by
  cases outcome <;> rfl

theorem safe_mapM {β : Type} {f : α → Checked ε β} {g : α → Except ε β} {list : List α}
    (h : ∀ a ∈ list, f a = safe (g a)) : list.mapM f = safe (list.mapM g) := by
  induction list with
  | nil => rfl
  | cons a list ih =>
    rw [List.mapM_cons, List.mapM_cons, h a (by simp), ih fun b hb => h b (by simp [hb])]
    exact safe_bind fun b _ => safe_bind fun bs _ => rfl

end PacketProtocol.Machine
