/-!
# Compression parameters

How strongly a tar archive is compressed into a zstd stream: the window is the least power of
two that holds the archive, within the limits that every reader accepts, and a thread is used
for each full block of 32 MiB, up to the number of processors and to the most that a compressor
runs.
-/

namespace TabPackager.Bundle

structure Compression where
  level : Nat
  threads : Nat
  checksum : Bool
  contentSize : Bool
  windowLog : Nat
  deriving DecidableEq, Repr

def bitLength (n : Nat) : Nat := if n = 0 then 0 else n.log2 + 1

/-- The size of the part of the archive that gives work to one thread. -/
def threadBlock : Nat := 32 * 1024 * 1024

def threadLimit : Nat := 256

/-- The parameters for an archive of the given size on a machine with the given number of
processors, if that is known. -/
def compressionFor (size : Nat) (processors : Option Nat) : Compression :=
  let n := max 1 size
  let available := match processors with
    | none | some 0 => 1
    | some p => p
  { level := 19
    threads := min threadLimit (min available (max 1 (n / threadBlock)))
    checksum := true
    contentSize := true
    windowLog := max 10 (min 27 (bitLength (n - 1))) }

end TabPackager.Bundle
