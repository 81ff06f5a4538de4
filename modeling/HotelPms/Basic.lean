import HotelPms.Lib.Period

/- What every part of the model shares: the ways a C++ call does not return,
   the build configuration that decides what `assert` does, and dates. -/
namespace HotelPms
open Lib

/-- How a call ends without returning: a failed `assert` stops the process, and
    an exception nobody on the path catches leaves through the caller. -/
inductive Fault where
  | assertion (what : String)
  | logicError (what : String)
  | invalidArgument (what : String)
  | jsonTypeError (what : String)
  | badDate (text : String)
  | badVariantAccess
  deriving DecidableEq, Repr

/-! Steps of a call that may end early. -/

theorem Except.bind_ok {ε α β : Type} {x : Except ε α} {a : α} (h : x = .ok a)
    (f : α → Except ε β) : (x >>= f) = f a := by
  rw [h]
  rfl

theorem Except.bind_eq_ok {ε α β : Type} {x : Except ε α} {f : α → Except ε β} {b : β} :
    (x >>= f) = .ok b ↔ ∃ a, x = .ok a ∧ f a = .ok b := by
  cases x with
  | error e =>
    constructor
    · intro h
      cases h
    · rintro ⟨a, ha, -⟩
      cases ha
  | ok a =>
    constructor
    · exact fun h => ⟨a, rfl, h⟩
    · rintro ⟨_, ha, h⟩
      cases ha
      exact h

theorem Except.mapM_ok {ε α β : Type} {f : α → Except ε β} {g : α → β} {xs : List α}
    (h : ∀ x ∈ xs, f x = .ok (g x)) : xs.mapM f = .ok (xs.map g) := by
  induction xs with
  | nil => rfl
  | cons x xs ih =>
    have hrest := ih fun y hy => h y (List.mem_cons_of_mem _ hy)
    rw [List.mapM_cons, Except.bind_ok (h x List.mem_cons_self), Except.bind_ok hrest]
    rfl

theorem Except.of_mapM_ok {ε α β : Type} {f : α → Except ε β} {xs : List α} {ys : List β}
    (h : xs.mapM f = .ok ys) : ∀ x ∈ xs, ∃ y, f x = .ok y := by
  induction xs generalizing ys with
  | nil => exact nofun
  | cons x xs ih =>
    rw [List.mapM_cons] at h
    obtain ⟨y, hy, h⟩ := Except.bind_eq_ok.1 h
    obtain ⟨rest, hrest, -⟩ := Except.bind_eq_ok.1 h
    exact List.forall_mem_cons.2 ⟨⟨y, hy⟩, ih hrest⟩

theorem Except.exists_mapM {ε α β : Type} {f : α → Except ε β} {xs : List α}
    (h : ∀ x ∈ xs, ∃ y, f x = .ok y) : ∃ ys, xs.mapM f = .ok ys := by
  induction xs with
  | nil => exact ⟨[], rfl⟩
  | cons x xs ih =>
    obtain ⟨⟨y, hy⟩, hrest⟩ := List.forall_mem_cons.1 h
    obtain ⟨ys, hys⟩ := ih hrest
    refine ⟨y :: ys, ?_⟩
    rw [List.mapM_cons, Except.bind_ok hy, Except.bind_ok hys]
    rfl

theorem Except.mapM_congr {ε α β : Type} {f g : α → Except ε β} {xs : List α}
    (h : ∀ x ∈ xs, f x = g x) : xs.mapM f = xs.mapM g := by
  induction xs with
  | nil => rfl
  | cons x xs ih =>
    obtain ⟨hx, hrest⟩ := List.forall_mem_cons.1 h
    rw [List.mapM_cons, List.mapM_cons, hx, ih hrest]

theorem Except.forall₂_of_mapM {ε α β : Type} {f : α → Except ε β} {xs : List α} {ys : List β}
    (h : xs.mapM f = .ok ys) : List.Forall₂ (fun x y => f x = .ok y) xs ys := by
  induction xs generalizing ys with
  | nil =>
    cases h
    exact .nil
  | cons x xs ih =>
    rw [List.mapM_cons] at h
    obtain ⟨y, hy, h⟩ := Except.bind_eq_ok.1 h
    obtain ⟨rest, hrest, h⟩ := Except.bind_eq_ok.1 h
    cases h
    exact .cons hy (ih hrest)

/-- Whether the build defines `NDEBUG`. `CMakeLists.txt` sets no build type, so by default it does not. -/
structure Build where
  ndebug : Bool
  deriving DecidableEq, Repr

/-- The build with assertions, which `CMakeLists.txt` gives by default. -/
def Build.debug : Build := ⟨false⟩

/-- The build without assertions. -/
def Build.release : Build := ⟨true⟩

/-- `assert(condition)`. -/
def Build.assert (b : Build) (condition : Bool) (what : String) : Except Fault Unit :=
  if b.ndebug || condition then .ok () else .error (.assertion what)

@[simp] theorem Build.assert_true (b : Build) (what : String) : b.assert true what = .ok () := by
  simp [Build.assert]

@[simp] theorem Build.assert_release (c : Bool) (what : String) :
    Build.release.assert c what = .ok () := by
  simp [Build.assert, Build.release]

/-- A `boost::gregorian::date` that is not special: a Julian day number of the
    years 1400 to 9999. -/
@[ext] structure Date where
  dayNumber : Int
  lower : 2232400 ≤ dayNumber
  upper : dayNumber ≤ 5373484
  deriving DecidableEq

instance : LinearOrder Date :=
  LinearOrder.lift' Date.dayNumber fun _ _ h => Date.ext h

theorem Date.lt_def {a b : Date} : a < b ↔ a.dayNumber < b.dayNumber := Iff.rfl

theorem Date.le_def {a b : Date} : a ≤ b ↔ a.dayNumber ≤ b.dayNumber := Iff.rfl

/-- `boost::gregorian::date_period`. -/
abbrev DatePeriod := Period Date

end HotelPms
