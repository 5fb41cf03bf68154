import Mathlib.Data.Nat.Notation
import Mathlib.Logic.Function.Basic

/-!
# Association sockets by client

The map under its lock.  Finding and inserting are two accesses, and what a
miss creates is created in between.
-/

namespace ByteHub.Udp

variable {Client Error : Type} [DecidableEq Client]

/-- A socket, by the number under which it was created. -/
abbrev Socket := ℕ

structure SockMap (Client : Type) where
  entries : Client → Option Socket

namespace SockMap

def new : SockMap Client := ⟨fun _ => none⟩

def find (sockmap : SockMap Client) (addr : Client) : Option Socket :=
  sockmap.entries addr

def insert
    (sockmap : SockMap Client) (addr : Client) (socket : Socket) :
    SockMap Client :=
  ⟨Function.update sockmap.entries addr (some socket)⟩

def remove (sockmap : SockMap Client) (addr : Client) : SockMap Client :=
  ⟨Function.update sockmap.entries addr none⟩

/-- Find a socket, or insert what `f` makes. -/
def findOrInsert
    (sockmap : SockMap Client) (addr : Client) (f : Except Error Socket) :
    Except Error Socket × SockMap Client :=
  match sockmap.find addr with
  | some socket => (.ok socket, sockmap)
  | none =>
      match f with
      | .ok socket => (.ok socket, sockmap.insert addr socket)
      | .error error => (.error error, sockmap)

variable (sockmap : SockMap Client) {addr other : Client}

@[simp]
theorem find_insert_self (socket : Socket) :
    (sockmap.insert addr socket).find addr = some socket :=
  Function.update_self addr _ _

@[simp]
theorem find_insert_of_ne (socket : Socket) (differ : other ≠ addr) :
    (sockmap.insert addr socket).find other = sockmap.find other :=
  Function.update_of_ne differ _ _

@[simp]
theorem find_remove_self : (sockmap.remove addr).find addr = none :=
  Function.update_self addr _ _

@[simp]
theorem find_remove_of_ne (differ : other ≠ addr) :
    (sockmap.remove addr).find other = sockmap.find other :=
  Function.update_of_ne differ _ _

theorem find_findOrInsert_of_ne
    (f : Except Error Socket) (differ : other ≠ addr) :
    (sockmap.findOrInsert addr f).2.find other = sockmap.find other := by
  unfold findOrInsert
  split
  · rfl
  · split
    · exact sockmap.find_insert_of_ne _ differ
    · rfl

/-- What is found or inserted is in the map afterwards. -/
theorem find_findOrInsert
    {f : Except Error Socket} {socket : Socket}
    (found : (sockmap.findOrInsert addr f).1 = .ok socket) :
    (sockmap.findOrInsert addr f).2.find addr = some socket := by
  unfold findOrInsert at found ⊢
  split at found
  · next there =>
    cases found
    exact there
  · split at found
    · cases found
      exact sockmap.find_insert_self _
    · cases found

end SockMap

end ByteHub.Udp
