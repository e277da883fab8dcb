import Mathlib
import TimeSync.Ntp.Client
import TimeSync.Proofs.Ntp.Codec

/-!
# Which replies are accepted

Here a reply is read by position, straight from its bytes: the three fields of
its first byte, the stratum in the second, the code at 12 and the stamps at 24, 32 and 40.
The conditions on a reply are stated in these terms and put in an order.  A query
succeeds exactly when all of them hold, and otherwise fails with the fault of the first
that does not.
-/

namespace TimeSync.Ntp

namespace Reply

/-- The byte at a position, zero past the end. -/
def byte (bytes : List UInt8) (position : Nat) : Nat := (bytes.getD position 0).toNat

/-- The four bytes from a position on as a number, the most significant first. -/
def word (bytes : List UInt8) (position : Nat) : Nat :=
  byte bytes position * 0x1000000 + byte bytes (position + 1) * 0x10000
    + byte bytes (position + 2) * 0x100 + byte bytes (position + 3)

/-- The eight bytes of the stamp at a position. -/
def stamp (bytes : List UInt8) (position : Nat) : List UInt8 := (bytes.drop position).take 8

/-- The stamp at a position in microseconds since 1970, to the nearest. -/
def micros (bytes : List UInt8) (position : Nat) : Int :=
  ((word bytes position : Int) - 2208988800) * 1000000
    + ((word bytes (position + 4) * 1000000 + 0x80000000) / 0x100000000 : Nat)

def mode (reply : List UInt8) : Nat := byte reply 0 % 8

def version (reply : List UInt8) : Nat := byte reply 0 / 8 % 8

def leap (reply : List UInt8) : Nat := byte reply 0 / 64

def stratum (reply : List UInt8) : Nat := byte reply 1

/-- The printable characters among the four bytes at 12. -/
def code (reply : List UInt8) : String :=
  String.ofList <| (((reply.drop 12).take 4).filter fun byte =>
    0x21 ≤ byte.toNat ∧ byte.toNat ≤ 0x7e).map fun byte => Char.ofNat byte.toNat

/-- The time on the way: what passed locally, less what passed at the server. -/
def delay (sent arrived : Int) (reply : List UInt8) : Int :=
  (arrived - sent) - (micros reply 40 - micros reply 32)

/-- What an accepted reply says. -/
def sample (sent arrived : Int) (reply : List UInt8) : Sample where
  offset := ((micros reply 32 - sent) + (micros reply 40 - arrived)).tdiv 2
  delay := delay sent arrived reply
  stratum := reply.getD 1 0
  arrival := arrived

/-- What a reply has to be, for a request sent at `sent`, if it is to be accepted. -/
structure Acceptable (sent arrived : Int) (request reply : List UInt8) : Prop where
  length : reply.length = 48
  mode : mode reply = 4
  version : 1 ≤ version reply ∧ version reply ≤ 4
  leap : leap reply ≠ 3
  stratum : 1 ≤ stratum reply ∧ stratum reply ≤ 15
  echo : stamp reply 24 = stamp request 40
  received : 2208988800 ≤ word reply 32
  answered : 2208988800 ≤ word reply 40
  delay : 0 ≤ delay sent arrived reply

/-- The conditions in the order in which they count, each with the fault that is
reported where it is the first to fail. -/
def checks (sent arrived : Int) (request reply : List UInt8) : List (Bool × Fault) :=
  [(reply.length = 48, .malformedPacket s!"expected 48 bytes, got {reply.length}"),
    (mode reply = 4, .malformedPacket s!"mode {mode reply} is not a server response"),
    (1 ≤ version reply ∧ version reply ≤ 4,
      .malformedPacket s!"unsupported version {version reply}"),
    (leap reply ≠ 3, .unsynchronized "leap indicator alarm"),
    (stratum reply ≠ 0, .kissOfDeath (code reply)),
    (stratum reply < 16, .unsynchronized s!"stratum {stratum reply}"),
    (stamp reply 24 = stamp request 40,
      .badTimestamps "origin timestamp does not echo our transmit timestamp"),
    (2208988800 ≤ word reply 32 ∧ 2208988800 ≤ word reply 40,
      .badTimestamps "server timestamps unset or out of range"),
    (0 ≤ delay sent arrived reply,
      .badTimestamps s!"negative round-trip delay {delay sent arrived reply}us")]

/-- The fault of the first condition that fails. -/
def firstFailure (sent arrived : Int) (request reply : List UInt8) : Option Fault :=
  ((checks sent arrived request reply).find? fun check => !check.1).map Prod.snd

theorem firstFailure_eq_none_iff {sent arrived : Int} {request reply : List UInt8} :
    firstFailure sent arrived request reply = none ↔
      Acceptable sent arrived request reply := by
  simp only [firstFailure, checks, Option.map_eq_none_iff, List.find?_eq_none,
    List.forall_mem_cons, Bool.not_eq_true', decide_eq_false_iff_not, not_not]
  constructor
  · intro passed
    obtain ⟨length, mode, version, leap, live, low, echo, stamps, delay, -⟩ := passed
    have range : 1 ≤ stratum reply ∧ stratum reply ≤ 15 := by omega
    exact ⟨length, mode, version, leap, range, echo, stamps.1, stamps.2, delay⟩
  · intro acceptable
    obtain ⟨length, mode, version, leap, range, echo, received, answered, delay⟩ := acceptable
    have live : stratum reply ≠ 0 := by omega
    have low : stratum reply < 16 := by omega
    exact ⟨length, mode, version, leap, live, low, echo, ⟨received, answered⟩, delay, by simp⟩

section Encoded

variable (packet : Packet)

theorem word_wordBytes (number : UInt32) :
    word (wordBytes number) 0 = number.toNat := by
  have bound := number.toNat_lt
  simp only [word, byte, wordBytes, List.getD_cons_zero, List.getD_cons_succ,
    UInt8.toNat_ofNat']
  omega

theorem mode_encode : mode packet.encode = packet.mode := rfl

theorem version_encode : version packet.encode = packet.version := rfl

theorem leap_encode : leap packet.encode = packet.leap := rfl

theorem stratum_encode : stratum packet.encode = packet.stratum.toNat := rfl

theorem code_encode : code packet.encode = packet.referenceCode := rfl

theorem stamp_origin : stamp packet.encode 24 = stampBytes packet.origin := rfl

theorem stamp_transmit : stamp packet.encode 40 = stampBytes packet.transmit := rfl

theorem word_receive : word packet.encode 32 = packet.receive.seconds.toNat :=
  word_wordBytes packet.receive.seconds

theorem word_receive_fraction : word packet.encode 36 = packet.receive.fraction.toNat :=
  word_wordBytes packet.receive.fraction

theorem word_transmit : word packet.encode 40 = packet.transmit.seconds.toNat :=
  word_wordBytes packet.transmit.seconds

theorem word_transmit_fraction : word packet.encode 44 = packet.transmit.fraction.toNat :=
  word_wordBytes packet.transmit.fraction

end Encoded

end Reply

theorem stampBytes_inj {left right : Stamp} :
    stampBytes left = stampBytes right ↔ left = right := by
  constructor
  · intro same
    have read := takeStamp?_stampBytes_nil left
    rw [same, takeStamp?_stampBytes_nil] at read
    cases read
    rfl
  · rintro rfl
    rfl

namespace Stamp

/-- A stamp of all zeros lies before 1970 anyway, so only the seconds decide. -/
theorem unixMicros?_eq_none_iff {stamp : Stamp} :
    stamp.unixMicros? = none ↔ stamp.seconds.toNat < epochOffset := by
  unfold unixMicros?
  by_cases early : stamp.seconds.toNat < epochOffset
  · rw [if_pos (.inr early)]
    exact iff_of_true rfl early
  · have kept : ¬ (stamp.isZero = true ∨ stamp.seconds.toNat < epochOffset) := by
      rintro (zero | before)
      · rw [isZero_iff] at zero
        rw [zero.1] at early
        exact early (by decide)
      · exact early before
    rw [if_neg kept]
    exact iff_of_false nofun early

theorem unixMicros?_of_le {stamp : Stamp} (late : epochOffset ≤ stamp.seconds.toNat) :
    stamp.unixMicros? = some (((stamp.seconds.toNat : Int) - epochOffset) * 1000000
      + ((stamp.fraction.toNat * 1000000 + 0x80000000) / 0x100000000 : Nat)) := by
  have converts : stamp.unixMicros? ≠ none := by
    rw [Ne, unixMicros?_eq_none_iff]
    omega
  unfold unixMicros? at converts ⊢
  by_cases refused : stamp.isZero = true ∨ stamp.seconds.toNat < epochOffset
  · rw [if_pos refused] at converts
    exact (converts rfl).elim
  · rw [if_neg refused, Int.ofNat_sub late]

end Stamp

namespace Reply

theorem find?_check_cons (held : Bool) (fault : Fault) (rest : List (Bool × Fault)) :
    (((held, fault) :: rest).find? fun check => !check.1).map Prod.snd =
      if ¬ held then some fault else (rest.find? fun check => !check.1).map Prod.snd := by
  cases held <;> rfl

theorem firstFailure_of_length {sent arrived : Int} {request reply : List UInt8}
    (wrong : reply.length ≠ 48) :
    firstFailure sent arrived request reply = some (Refusal.length reply.length).fault := by
  simp [firstFailure, checks, wrong, Refusal.fault]

theorem firstFailure_encode (sent arrived : Int) (request : Request) (packet : Packet) :
    firstFailure sent arrived request.bytes packet.encode =
      if packet.mode ≠ 4 then some (Refusal.mode packet.mode).fault
      else match checkReply packet request with
        | .error refusal => some refusal.fault
        | .ok () =>
          if delay sent arrived packet.encode < 0 then
            some (Refusal.negativeDelay (delay sent arrived packet.encode)).fault
          else none := by
  have dead : packet.stratum = 0 ↔ packet.stratum.toNat = 0 := by
    rw [← UInt8.toNat_inj]
    rfl
  have high : 16 ≤ packet.stratum ↔ 16 ≤ packet.stratum.toNat := UInt8.le_iff_toNat_le
  have range : packet.receive.unixMicros? = none ∨ packet.transmit.unixMicros? = none ↔
      ¬ (2208988800 ≤ packet.receive.seconds.toNat ∧
        2208988800 ≤ packet.transmit.seconds.toNat) := by
    rw [Stamp.unixMicros?_eq_none_iff, Stamp.unixMicros?_eq_none_iff]
    simp only [Stamp.epochOffset]
    omega
  have echo : stamp request.bytes 40 = stampBytes request.transmit :=
    stamp_transmit request.packet
  have size : packet.encode.length = 48 := Packet.length_encode packet
  simp only [firstFailure, checks, find?_check_cons, List.find?_nil, Option.map_none,
    decide_eq_true_eq, ne_eq, not_not, not_lt, not_le]
  rw [if_neg (not_not.mpr size)]
  simp only [mode_encode, version_encode, leap_encode, stratum_encode, code_encode,
    stamp_origin, echo, word_receive, word_transmit, stampBytes_inj]
  simp only [checkReply, dead, high, range, ne_eq]
  split_ifs <;> rfl

theorem stamps_of_checkReply {packet : Packet} {request : Request}
    (passed : checkReply packet request = .ok ()) :
    packet.receive.unixMicros? = some (micros packet.encode 32) ∧
      packet.transmit.unixMicros? = some (micros packet.encode 40) := by
  have converts : ¬ (packet.receive.unixMicros? = none ∨
      packet.transmit.unixMicros? = none) := by
    intro range
    unfold checkReply at passed
    split_ifs at passed
  rw [not_or, Stamp.unixMicros?_eq_none_iff, Stamp.unixMicros?_eq_none_iff, not_lt,
    not_lt] at converts
  rw [Stamp.unixMicros?_of_le converts.1, Stamp.unixMicros?_of_le converts.2, micros, micros,
    word_receive, word_receive_fraction, word_transmit, word_transmit_fraction]
  exact ⟨rfl, rfl⟩

theorem judge_of_length {sent arrived : Int} {reply : List UInt8} (wrong : reply.length ≠ 48) :
    judge sent arrived reply = .error (.length reply.length) := by
  simp only [judge, readReply, Packet.decode?_eq_none_iff.mpr wrong]
  rfl

/-- An encoded packet is judged by its fields, and by no stamp that does not convert. -/
theorem judge_encode (sent arrived : Int) (packet : Packet) :
    judge sent arrived packet.encode =
      if packet.mode ≠ 4 then .error (.mode packet.mode)
      else match checkReply packet (.sentAt sent) with
        | .error refusal => .error refusal
        | .ok () =>
          if delay sent arrived packet.encode < 0 then
            .error (.negativeDelay (delay sent arrived packet.encode))
          else .ok (sample sent arrived packet.encode) := by
  simp only [judge, readReply, Packet.decode?_encode]
  by_cases mode : packet.mode = 4
  · cases checked : checkReply packet (.sentAt sent) with
    | error refusal =>
      simp only [mode, checked, bind, Except.bind, if_true, ne_eq, not_true_eq_false, if_false]
    | ok _ =>
      obtain ⟨received, answered⟩ := stamps_of_checkReply checked
      have measured : Ntp.delay sent (micros packet.encode 32) (micros packet.encode 40)
          arrived = delay sent arrived packet.encode := rfl
      simp only [mode, checked, received, answered, measured, bind, Except.bind, if_true,
        ne_eq, not_true_eq_false, if_false]
      rfl
  · rw [if_neg mode, if_pos mode]
    rfl

/-- A reply is judged by the first condition that fails, and accepted if none does. -/
theorem judge_eq (sent arrived : Int) (reply : List UInt8) :
    (judge sent arrived reply).mapError Refusal.fault =
      match firstFailure sent arrived (Request.sentAt sent).bytes reply with
      | some fault => .error fault
      | none => .ok (sample sent arrived reply) := by
  by_cases length : reply.length = 48
  · obtain ⟨packet, rfl⟩ := Packet.exists_encode_eq length
    rw [firstFailure_encode, judge_encode]
    cases checkReply packet (.sentAt sent) with
    | error refusal => split_ifs <;> rfl
    | ok _ => split_ifs <;> rfl
  · rw [firstFailure_of_length length, judge_of_length length]
    rfl

theorem judge_eq_ok_iff {sent arrived : Int} {reply : List UInt8} {accepted : Sample} :
    judge sent arrived reply = .ok accepted ↔
      Acceptable sent arrived (Request.sentAt sent).bytes reply ∧
        accepted = sample sent arrived reply := by
  have kept : judge sent arrived reply = .ok accepted ↔
      (judge sent arrived reply).mapError Refusal.fault = .ok accepted := by
    cases judge sent arrived reply <;> simp [Except.mapError]
  rw [kept, judge_eq, ← firstFailure_eq_none_iff]
  cases firstFailure sent arrived (Request.sentAt sent).bytes reply with
  | none => simp [eq_comm]
  | some fault => simp

theorem judge_eq_error_iff {sent arrived : Int} {reply : List UInt8} {fault : Fault} :
    (judge sent arrived reply).mapError Refusal.fault = .error fault ↔
      firstFailure sent arrived (Request.sentAt sent).bytes reply = some fault := by
  rw [judge_eq]
  cases firstFailure sent arrived (Request.sentAt sent).bytes reply with
  | none => simp
  | some first => simp

theorem checkReply_ne_stampConversion (packet : Packet) (request : Request) :
    checkReply packet request ≠ .error .stampConversion := by
  unfold checkReply
  split_ifs <;> nofun

theorem judge_ne_stampConversion (sent arrived : Int) (reply : List UInt8) :
    judge sent arrived reply ≠ .error .stampConversion := by
  by_cases length : reply.length = 48
  · obtain ⟨packet, rfl⟩ := Packet.exists_encode_eq length
    rw [judge_encode]
    cases checked : checkReply packet (.sentAt sent) with
    | error refusal =>
      have named : refusal ≠ .stampConversion := by
        rintro rfl
        exact checkReply_ne_stampConversion packet _ checked
      dsimp only
      split_ifs
      · nofun
      · simpa using named
    | ok _ => split_ifs <;> nofun
  · rw [judge_of_length length]
    nofun

end Reply

namespace Client

variable {ε κ : Type}

section Exchange

variable {transport : Transport ε κ} {clock : LocalClock ε} {host : String} {port : UInt16}
  {timeout : Duration} {context : Context ε}

theorem exchange_eq_ok_iff {sample : Sample} :
    (exchange transport clock host port timeout context).1 = .ok sample ↔
      ∃ path opened reply answered,
        transport.connect host port timeout context = (.ok path, opened) ∧
        transport.roundTrip path (Request.sentAt (clock opened)).bytes opened =
          (.ok reply, answered) ∧
        judge (clock opened) (clock answered) reply = .ok sample := by
  constructor
  · intro succeeded
    unfold exchange at succeeded
    split at succeeded
    · cases succeeded
    · rename_i path opened reached
      dsimp only at succeeded
      split at succeeded
      · cases succeeded
      · rename_i reply answered replied
        cases verdict : judge (clock opened) (clock answered) reply with
        | error refusal =>
          rw [verdict] at succeeded
          cases succeeded
        | ok accepted =>
          rw [verdict] at succeeded
          cases succeeded
          exact ⟨path, opened, reply, answered, reached, replied, verdict⟩
  · rintro ⟨path, opened, reply, answered, reached, replied, verdict⟩
    simp only [exchange, reached, replied, verdict]
    rfl

theorem exchange_eq_error_iff {fault : Fault} :
    (exchange transport clock host port timeout context).1 = .error fault ↔
      (∃ opened, transport.connect host port timeout context = (.error fault, opened)) ∨
      (∃ path opened answered,
        transport.connect host port timeout context = (.ok path, opened) ∧
        transport.roundTrip path (Request.sentAt (clock opened)).bytes opened =
          (.error fault, answered)) ∨
      ∃ path opened reply answered,
        transport.connect host port timeout context = (.ok path, opened) ∧
        transport.roundTrip path (Request.sentAt (clock opened)).bytes opened =
          (.ok reply, answered) ∧
        (judge (clock opened) (clock answered) reply).mapError Refusal.fault =
          .error fault := by
  constructor
  · intro failed
    unfold exchange at failed
    split at failed
    · rename_i first opened unreached
      cases failed
      exact .inl ⟨opened, unreached⟩
    · rename_i path opened reached
      dsimp only at failed
      split at failed
      · rename_i first answered unanswered
        cases failed
        exact .inr (.inl ⟨path, opened, answered, reached, unanswered⟩)
      · rename_i reply answered replied
        exact .inr (.inr ⟨path, opened, reply, answered, reached, replied, failed⟩)
  · rintro (⟨opened, unreached⟩ | ⟨path, opened, answered, reached, unanswered⟩ |
      ⟨path, opened, reply, answered, reached, replied, verdict⟩)
    · simp only [exchange, unreached]
    · simp only [exchange, reached, unanswered]
    · simp only [exchange, reached, replied, verdict]

end Exchange

/-- A query succeeds exactly when the server is reached, answers, and every condition on
the reply holds, and it then says what the reply says.  Otherwise it fails, with the fault
of the first step or condition that failed.  That is never the fault for stamps that
pass their check and do not convert. -/
theorem query_exact (client : Client) (transport : Transport ε κ) (clock : LocalClock ε)
    (host : String) (port : UInt16) (timeout : Duration) (context : Context ε) :
    (∀ sample, (client.query transport clock host port timeout context).1 = .ok sample ↔
      ∃ path opened reply answered,
        transport.connect host port timeout context = (.ok path, opened) ∧
        transport.roundTrip path (Request.sentAt (clock opened)).bytes opened =
          (.ok reply, answered) ∧
        Reply.Acceptable (clock opened) (clock answered)
          (Request.sentAt (clock opened)).bytes reply ∧
        sample = Reply.sample (clock opened) (clock answered) reply) ∧
    (∀ fault, (client.query transport clock host port timeout context).1 = .error fault ↔
      (∃ opened, transport.connect host port timeout context = (.error fault, opened)) ∨
      (∃ path opened answered,
        transport.connect host port timeout context = (.ok path, opened) ∧
        transport.roundTrip path (Request.sentAt (clock opened)).bytes opened =
          (.error fault, answered)) ∨
      ∃ path opened reply answered,
        transport.connect host port timeout context = (.ok path, opened) ∧
        transport.roundTrip path (Request.sentAt (clock opened)).bytes opened =
          (.ok reply, answered) ∧
        Reply.firstFailure (clock opened) (clock answered)
          (Request.sentAt (clock opened)).bytes reply = some fault) ∧
    ∀ sent arrived reply, judge sent arrived reply ≠ .error .stampConversion := by
  refine ⟨?_, ?_, Reply.judge_ne_stampConversion⟩
  · intro sample
    simp only [← Reply.judge_eq_ok_iff]
    exact exchange_eq_ok_iff
  · intro fault
    simp only [← Reply.judge_eq_error_iff]
    exact exchange_eq_error_iff

end Client

end TimeSync.Ntp
