/-! A reader of bytes, with everything that can happen between it and who reads: bytes come in
pieces, a read may be interrupted without giving any, and after the last byte every read may fail
instead of reporting the end. -/
namespace Stencil

/-- How one read is answered. -/
inductive Delivery where
  /-- No bytes; the read is to be tried again. -/
  | interrupted
  /-- At most so many bytes, and one at least. -/
  | upTo (count : Nat)
  deriving DecidableEq, Repr

/-- What a read of bytes yields. -/
inductive ByteRead where
  /-- Some bytes; none mean the end. -/
  | bytes (bs : List UInt8)
  /-- Nothing, this time. -/
  | interrupted
  | failed (message : String)

def ByteRead.given : ByteRead → List UInt8
  | bytes bs => bs
  | _ => []

structure ByteReader where
  /-- The bytes still to come. -/
  data : List UInt8
  /-- How the next reads are answered. Later ones give all they are asked for. -/
  plan : List Delivery := []
  /-- How reads fail behind the last byte; none, if they report the end. -/
  failure : Option String := none

namespace ByteReader

/-- Give bytes, or what comes behind the last one. -/
def give (reader : ByteReader) (count : Nat) : ByteRead × ByteReader :=
  match reader.data, reader.failure with
  | [], some message => (.failed message, reader)
  | data, _ => (.bytes (data.take count), { reader with data := data.drop count })

/-- Ask for at most `limit` bytes. -/
def read (reader : ByteReader) (limit : Nat) : ByteRead × ByteReader :=
  match reader.plan with
  | [] => reader.give limit
  | .interrupted :: plan => (.interrupted, { reader with plan })
  | .upTo count :: plan => ({ reader with plan } : ByteReader).give (min limit (max count 1))

/-- A bound on how often the reader can be asked before it has nothing new to say. -/
def bound (reader : ByteReader) : Nat :=
  reader.plan.length + reader.data.length

/-- What a read gives is taken off the front of the data, and nothing else is lost. -/
theorem data_of_read {reader reader' : ByteReader} {limit : Nat} {result : ByteRead}
    (h : reader.read limit = (result, reader')) : reader.data = result.given ++ reader'.data := by
  unfold read give at h
  split at h
  · split at h <;> simp only [Prod.mk.injEq] at h <;> simp [← h.1, ← h.2, ByteRead.given]
  · simp only [Prod.mk.injEq] at h
    simp [← h.1, ← h.2, ByteRead.given]
  · split at h <;> simp only [Prod.mk.injEq] at h <;> simp [← h.1, ← h.2, ByteRead.given]

/-- The plan is only ever used up. -/
theorem plan_of_read {reader reader' : ByteReader} {limit : Nat} {result : ByteRead}
    (h : reader.read limit = (result, reader')) : reader'.plan.length ≤ reader.plan.length := by
  unfold read give at h
  split at h
  · split at h <;> simp only [Prod.mk.injEq] at h <;> simp [← h.2]
  · next hp => simp only [Prod.mk.injEq] at h; simp [← h.2, hp]
  · next hp => split at h <;> simp only [Prod.mk.injEq] at h <;> simp [← h.2, hp]

/-- An interruption is part of the plan. -/
theorem plan_of_interrupted {reader reader' : ByteReader} {limit : Nat}
    (h : reader.read limit = (.interrupted, reader')) :
    reader'.plan.length < reader.plan.length := by
  unfold read give at h
  split at h
  · split at h <;> simp at h
  · next hp => simp only [Prod.mk.injEq] at h; simp [← h.2, hp]
  · next hp => split at h <;> simp at h

/-- An interruption or a piece of data brings the reader nearer to having nothing new to say. -/
theorem bound_of_interrupted {reader reader' : ByteReader} {limit : Nat}
    (h : reader.read limit = (.interrupted, reader')) : reader'.bound < reader.bound := by
  have hd := data_of_read h
  have hp := plan_of_interrupted h
  simp only [ByteRead.given, List.nil_append] at hd
  unfold bound
  rw [hd]
  omega

theorem bound_of_bytes {reader reader' : ByteReader} {limit : Nat} {bs : List UInt8}
    (h : reader.read limit = (.bytes bs, reader')) :
    reader'.bound + bs.length ≤ reader.bound := by
  have hd := data_of_read h
  have hp := plan_of_read h
  simp only [ByteRead.given] at hd
  unfold bound
  rw [hd, List.length_append]
  omega

end ByteReader

end Stencil
