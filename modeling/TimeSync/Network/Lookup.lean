import TimeSync.Network.Address
import TimeSync.Ntp.Fault
import TimeSync.Context

/-!
# Looking hosts up

Of several addresses of a host the first of four octets is taken, since most
servers are reached there.
-/

namespace TimeSync.Network

open Ntp (Fault)

abbrev Lookup (ε : Type) := String → UInt16 → Context ε → Except Fault String × Context ε

/-- The address to take of those that a host has. -/
def preferred? (addresses : List Address) : Option Address :=
  (addresses.find? Address.isV4).or addresses.head?

def describe {ε : Type} (lookup : Lookup ε) (host : String) (port : UInt16)
    (context : Context ε) : Context ε :=
  match lookup host port context with
  | (.ok address, context) => context.note .info s!"{host}:{port} -> {address}"
  | (.error fault, context) => context.note .warn fault.message

end TimeSync.Network
