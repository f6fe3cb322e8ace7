import TabPackager.Calendar

/-!
# Archives

What the four archive containers store: their members in order, each with its name, the bytes of
a file or the target of a link, and the fields of the container's own header. Names, times and
link targets that a tar header cannot hold are repeated in an extended header of text records.
-/

namespace TabPackager

structure ZipEntry (β : Type) where
  name : String
  year : Nat
  month : Nat
  day : Nat
  hour : Nat
  minute : Nat
  second : Nat
  deflated : Bool
  content : β

inductive TarBody (β : Type) where
  | file (size : Nat) (content : β)
  | symlink (target : String)
  | hardlink (target : String)

structure TarEntry (β : Type) where
  name : String
  modified : Int
  body : TarBody β

/-- A finished archive: plain, or a tar archive inside a compressed stream, with what the
stream's header holds beside it. -/
inductive Archive (β : Type) where
  | zip (entries : List (ZipEntry β))
  | tar (entries : List (TarEntry β))
  | gzip (label : String) (stamp : Nat) (entries : List (TarEntry β))
  | zstd (checksum : Bool) (windowLog : Nat) (entries : List (TarEntry β))

def isAscii (s : String) : Bool := s.toList.all fun c => decide (c.toNat < 128)

end TabPackager
