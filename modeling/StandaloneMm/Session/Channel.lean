import StandaloneMm.Machine

/-!
Anything that carries a message to the partition and its reply back, and the smallest use of one:
telling the partition that an event group was signalled.
-/
namespace StandaloneMm

/-- Sends a message slice with an optional capacity; the exchange holds what is left of both. -/
abbrev Channel (ω : Type) := Bytes → Option UInt64 → Machine ω → Exchange × Machine ω

namespace EventGroup

variable {ω : Type}

def endOfDxe : Guid := ⟨0x02ce967a, 0xdd7e, 0x4ffc, 0x9ee7810cf0470880⟩

def exitBootServices : Guid := ⟨0x27abf055, 0xb1b8, 0x4c26, 0x8048748f37baa2df⟩

def readyToBoot : Guid := ⟨0x7ce88fb3, 0x4bd7, 0x4679, 0x87a8a8d8dee50d2b⟩

def forwarded : List Guid := [endOfDxe, exitBootServices, readyToBoot]

/-- A single zero byte addressed to the group. -/
def message (group : Guid) : Bytes := MessageHeader.encode ⟨group, 1⟩ ++ zeros 1

def signal (channel : Channel ω) (group : Guid) (m : Machine ω) :
    Except Fault Unit × Machine ω :=
  let sent := message group
  let (exchange, m) :=
    channel sent (some (UInt64.ofNat sent.length)) (m.log .debug .mmComm)
  match exchange.result with
  | .error (.error e) => (.error (.error e), m.log .error .mmComm)
  | result => (result, m)

end EventGroup
end StandaloneMm
