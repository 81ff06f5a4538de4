import Mathlib.Data.List.Basic

/- Messages in a stream of bytes, each after a header that gives its length.

   The headers have one width, and give a length back if it is below a bound
   (`LengthHeader`). A reader waits for a header, then for a body of that length
   (`Reading`). Of the frames of messages it reads these messages (`read_frames`); of
   a frame that is not complete it reads none (`read_incomplete`). -/
namespace HotelPms.Lib

/-- Headers of one width. -/
structure LengthHeader (β : Type*) where
  width : Nat
  bound : Nat
  encode : Nat → List β
  decode : List β → Nat
  width_pos : 0 < width
  length_encode : ∀ n, (encode n).length = width
  decode_encode : ∀ n, n < bound → decode (encode n) = n

namespace LengthHeader
variable {β : Type*} (h : LengthHeader β)

def frame (message : List β) : List β := h.encode message.length ++ message

def frames (messages : List (List β)) : List β := messages.flatMap h.frame

/-- What a reader has of the next header, or of the body after it. -/
inductive Reading (β : Type*) where
  | header (got : List β)
  | body (size : Nat) (got : List β)

/-- A body that is complete is a message; an empty one is complete at once. -/
def readBody (size : Nat) (got : List β) : Reading β × List (List β) :=
  if got.length = size then (.header [], [got]) else (.body size got, [])

def readByte : Reading β → β → Reading β × List (List β)
  | .header got, b =>
    if (got ++ [b]).length = h.width then readBody (h.decode (got ++ [b])) []
    else (.header (got ++ [b]), [])
  | .body size got, b => readBody size (got ++ [b])

/-- The bytes one after another, and the messages that end among them. -/
def read : Reading β → List β → Reading β × List (List β)
  | r, [] => (r, [])
  | r, b :: rest =>
    let next := h.readByte r b
    let later := read next.1 rest
    (later.1, next.2 ++ later.2)

@[simp] theorem frames_nil : h.frames [] = [] := rfl

@[simp] theorem frames_cons (m : List β) (ms : List (List β)) :
    h.frames (m :: ms) = h.frame m ++ h.frames ms := rfl

@[simp] theorem frames_append (ms ns : List (List β)) :
    h.frames (ms ++ ns) = h.frames ms ++ h.frames ns := List.flatMap_append

theorem read_append (r : Reading β) (as bs : List β) : h.read r (as ++ bs) =
    ((h.read (h.read r as).1 bs).1, (h.read r as).2 ++ (h.read (h.read r as).1 bs).2) := by
  induction as generalizing r with
  | nil => rfl
  | cons a as ih => simp only [List.cons_append, read, ih, List.append_assoc]

/-! ## One frame -/

theorem read_header_open {got bs : List β} (hopen : (got ++ bs).length < h.width) :
    h.read (.header got) bs = (.header (got ++ bs), []) := by
  induction bs generalizing got with
  | nil => rw [List.append_nil, read]
  | cons b bs ih =>
    rw [List.append_cons] at hopen ⊢
    have hshort : (got ++ [b]).length ≠ h.width := by
      rw [List.length_append] at hopen
      omega
    rw [read, readByte, if_neg hshort, ih hopen, List.nil_append]

theorem read_body_open {size : Nat} {got bs : List β} (hopen : (got ++ bs).length < size) :
    h.read (.body size got) bs = (.body size (got ++ bs), []) := by
  induction bs generalizing got with
  | nil => rw [List.append_nil, read]
  | cons b bs ih =>
    rw [List.append_cons] at hopen ⊢
    have hshort : (got ++ [b]).length ≠ size := by
      rw [List.length_append] at hopen
      omega
    rw [read, readByte, readBody, if_neg hshort, ih hopen, List.nil_append]

/-- The last byte of a header makes the reader wait for the body. -/
theorem read_header {bs : List β} (hfull : bs.length = h.width) :
    h.read (.header []) bs = readBody (h.decode bs) [] := by
  have hne : bs ≠ [] := by
    rintro rfl
    exact absurd hfull (Nat.ne_of_lt h.width_pos)
  obtain ⟨init, last, rfl⟩ := (List.eq_nil_or_concat bs).resolve_left hne
  rw [List.concat_eq_append] at hfull ⊢
  have hopen : ([] ++ init).length < h.width := by
    rw [← hfull, List.nil_append, List.length_append]
    exact Nat.lt_succ_self _
  rw [read_append, read_header_open h hopen, List.nil_append, List.nil_append, read, readByte,
    if_pos hfull, read, List.append_nil]

theorem read_body (m : List β) :
    h.read (readBody m.length []).1 m = (.header [], if m = [] then [] else [m]) := by
  rcases List.eq_nil_or_concat m with rfl | ⟨init, last, rfl⟩
  · rfl
  · rw [List.concat_eq_append]
    have hwait : ([] : List β).length ≠ (init ++ [last]).length := by simp
    have hopen : ([] ++ init).length < (init ++ [last]).length := by simp
    rw [readBody, if_neg hwait, read_append, read_body_open h hopen, List.nil_append, List.nil_append,
      read, readByte, readBody, if_pos rfl, read, if_neg (by simp), List.append_nil]

theorem read_frame {m : List β} (hm : m.length < h.bound) :
    h.read (.header []) (h.frame m) = (.header [], [m]) := by
  rw [frame, read_append, read_header h (h.length_encode _), h.decode_encode _ hm, read_body]
  by_cases hempty : m = []
  · rw [if_pos hempty, hempty]
    rfl
  · have hwait : ([] : List β).length ≠ m.length := fun hl => hempty (List.length_eq_zero_iff.1 hl.symm)
    rw [readBody, if_neg hwait, if_neg hempty, List.nil_append]

theorem read_frames {ms : List (List β)} (hms : ∀ m ∈ ms, m.length < h.bound) :
    h.read (.header []) (h.frames ms) = (.header [], ms) := by
  induction ms with
  | nil => rfl
  | cons m ms ih =>
    obtain ⟨hm, hrest⟩ := List.forall_mem_cons.1 hms
    rw [frames_cons, read_append, read_frame h hm, ih hrest]
    rfl

/-- Without its last bytes a frame is no message yet. -/
theorem read_incomplete {m bs rest : List β} (hm : m.length < h.bound) (hframe : bs ++ rest = h.frame m)
    (hrest : rest ≠ []) : (h.read (.header []) bs).2 = [] := by
  have hpos := List.length_pos_of_ne_nil hrest
  rcases List.append_eq_append_iff.1 hframe with ⟨missing, henc, hmissing⟩ | ⟨start, rfl, hm'⟩
  · -- the bytes end in the header
    by_cases hfull : bs.length = h.width
    · have hnone : missing = [] := by
        have hlength := congrArg List.length henc
        rw [h.length_encode, List.length_append, hfull] at hlength
        exact List.length_eq_zero_iff.1 (by omega)
      rw [hnone, List.nil_append] at hmissing
      rw [hnone, List.append_nil] at henc
      have hwait : ([] : List β).length ≠ m.length := by
        rw [← hmissing, List.length_nil]
        omega
      rw [read_header h hfull, ← henc, h.decode_encode _ hm, readBody, if_neg hwait]
    · have hopen : ([] ++ bs).length < h.width := by
        have hlength := congrArg List.length henc
        rw [h.length_encode, List.length_append] at hlength
        rw [List.nil_append]
        omega
      rw [read_header_open h hopen]
  · -- the bytes end in the body
    have hwait : ([] : List β).length ≠ m.length := by
      rw [hm', List.length_append, List.length_nil]
      omega
    have hopen : ([] ++ start).length < m.length := by
      rw [hm', List.nil_append, List.length_append]
      omega
    rw [read_append, read_header h (h.length_encode _), h.decode_encode _ hm, readBody, if_neg hwait,
      read_body_open h hopen]
    rfl

theorem read_frames_incomplete {ms : List (List β)} {m bs rest : List β}
    (hms : ∀ m' ∈ ms, m'.length < h.bound) (hm : m.length < h.bound) (hframe : bs ++ rest = h.frame m)
    (hrest : rest ≠ []) : (h.read (.header []) (h.frames ms ++ bs)).2 = ms := by
  rw [read_append, read_frames h hms, read_incomplete h hm hframe hrest, List.append_nil]

end LengthHeader

end HotelPms.Lib
