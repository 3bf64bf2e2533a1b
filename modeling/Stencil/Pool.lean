/-! A pool of buffers. Buffers that are given back wait there to be used again, up to a limit; the
pool also counts those that are in use. Only the size of a buffer matters, so a buffer is its
size. -/
namespace Stencil

/-- Room for a fixed number of characters. -/
structure Buffer where
  size : Nat
  deriving DecidableEq, Repr

structure Pool where
  /-- The buffers that wait to be used. -/
  free : List Buffer := []
  maxIdle : Nat
  /-- How many are in use. -/
  outstanding : Nat := 0
  deriving DecidableEq, Repr

namespace Pool

/-- How many buffers wait to be used. -/
def idle (pool : Pool) : Nat :=
  pool.free.length

/-- Take a buffer of a certain size: one that waits, or else a new one. -/
def checkOut (pool : Pool) (size : Nat) : Buffer × Pool :=
  let outstanding := pool.outstanding + 1
  match pool.free.find? (·.size = size) with
  | some buffer => (buffer, { pool with free := pool.free.erase buffer, outstanding })
  | none => (⟨size⟩, { pool with outstanding })

/-- Give a buffer back. It is dropped if enough others wait. -/
def giveBack (pool : Pool) (buffer : Buffer) : Pool :=
  let outstanding := pool.outstanding - 1
  if pool.free.length < pool.maxIdle then
    { pool with free := pool.free ++ [buffer], outstanding }
  else { pool with outstanding }

def giveBackAll (pool : Pool) (buffers : List Buffer) : Pool :=
  buffers.foldl giveBack pool

/-- A buffer that is taken has the size that was asked for. -/
theorem size_checkOut (pool : Pool) (size : Nat) : (pool.checkOut size).1.size = size := by
  unfold checkOut
  split
  · next h => simpa using List.find?_some h
  · rfl

end Pool

end Stencil
