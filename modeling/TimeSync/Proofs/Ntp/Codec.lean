import Mathlib
import TimeSync.Ntp.Exchange

/-!
# Reading a packet undoes writing it

What is read off the front of some bytes, put back in front of the rest, gives the
same bytes, and 48 bytes are always enough for a packet.  So reading accepts exactly
what writing produces, and replies are the packets with the mode of a server.  A request
becomes one by a change of its first byte alone.
-/

namespace TimeSync.Ntp

theorem takeWord?_eq_some_iff {bytes rest : List UInt8} {word : UInt32} :
    takeWord? bytes = some (word, rest) ↔ bytes = wordBytes word ++ rest := by
  constructor
  · intro taken
    match bytes with
    | first :: second :: third :: fourth :: tail =>
      simp only [takeWord?, Option.some.injEq, Prod.mk.injEq] at taken
      obtain ⟨rfl, rfl⟩ := taken
      have firstBound := first.toNat_lt
      have secondBound := second.toNat_lt
      have thirdBound := third.toNat_lt
      have fourthBound := fourth.toNat_lt
      simp only [wordBytes, List.cons_append, List.nil_append, List.cons.injEq, and_true]
      refine ⟨?_, ?_, ?_, ?_⟩ <;>
        · apply UInt8.toNat_inj.mp
          simp only [UInt8.toNat_ofNat', UInt32.toNat_ofNat']
          omega
    | [] | [_] | [_, _] | [_, _, _] => cases taken
  · rintro rfl
    exact takeWord?_wordBytes word rest

theorem exists_takeWord? {bytes : List UInt8} (enough : 4 ≤ bytes.length) :
    ∃ word rest, takeWord? bytes = some (word, rest) ∧ rest.length + 4 = bytes.length := by
  match bytes with
  | first :: second :: third :: fourth :: tail => exact ⟨_, tail, rfl, rfl⟩
  | [] | [_] | [_, _] | [_, _, _] =>
    simp only [List.length_cons, List.length_nil] at enough
    omega

theorem takeStamp?_eq_some_iff {bytes rest : List UInt8} {stamp : Stamp} :
    takeStamp? bytes = some (stamp, rest) ↔ bytes = stampBytes stamp ++ rest := by
  constructor
  · intro taken
    simp only [takeStamp?, Option.bind_eq_bind, Option.bind_eq_some_iff, Option.pure_def,
      Option.some.injEq, Prod.mk.injEq] at taken
    obtain ⟨⟨seconds, middle⟩, first, ⟨fraction, last⟩, second, rfl, rfl⟩ := taken
    dsimp only at second ⊢
    rw [takeWord?_eq_some_iff.mp first, takeWord?_eq_some_iff.mp second]
    simp only [stampBytes, List.append_assoc]
  · rintro rfl
    exact takeStamp?_stampBytes stamp rest

theorem exists_takeStamp? {bytes : List UInt8} (enough : 8 ≤ bytes.length) :
    ∃ stamp rest, takeStamp? bytes = some (stamp, rest) ∧
      rest.length + 8 = bytes.length := by
  obtain ⟨seconds, middle, first, firstLength⟩ :=
    exists_takeWord? (show 4 ≤ bytes.length by omega)
  obtain ⟨fraction, rest, second, secondLength⟩ :=
    exists_takeWord? (show 4 ≤ middle.length by omega)
  refine ⟨⟨seconds, fraction⟩, rest, ?_, by omega⟩
  simp [takeStamp?, first, second]

namespace Packet

/-- Reading accepts exactly what writing produces. -/
theorem decode?_eq_some_iff {bytes : List UInt8} {packet : Packet} :
    decode? bytes = some packet ↔ bytes = packet.encode := by
  constructor
  · intro read
    unfold decode? at read
    split at read
    · rename_i flags stratum poll precision tail
      simp only [Option.bind_eq_bind, Option.bind_eq_some_iff] at read
      obtain ⟨⟨rootDelay, afterDelay⟩, delayRead, ⟨rootDispersion, afterDispersion⟩,
        dispersionRead, ⟨referenceId, afterId⟩, idRead, ⟨reference, afterReference⟩,
        referenceRead, ⟨origin, afterOrigin⟩, originRead, ⟨receive, afterReceive⟩,
        receiveRead, ⟨transmit, afterTransmit⟩, transmitRead, rest⟩ := read
      dsimp only at *
      split at rest
      · rename_i ended
        cases rest
        subst ended
        rw [takeWord?_eq_some_iff.mp delayRead, takeWord?_eq_some_iff.mp dispersionRead,
          takeWord?_eq_some_iff.mp idRead, takeStamp?_eq_some_iff.mp referenceRead,
          takeStamp?_eq_some_iff.mp originRead, takeStamp?_eq_some_iff.mp receiveRead,
          takeStamp?_eq_some_iff.mp transmitRead]
        simp [encode]
      · cases rest
    · cases read
  · rintro rfl
    exact decode?_encode packet

theorem exists_encode_eq {bytes : List UInt8} (length : bytes.length = 48) :
    ∃ packet : Packet, bytes = packet.encode := by
  match bytes with
  | flags :: stratum :: poll :: precision :: tail =>
    simp only [List.length_cons] at length
    obtain ⟨rootDelay, afterDelay, delayRead, delayLength⟩ :=
      exists_takeWord? (show 4 ≤ tail.length by omega)
    obtain ⟨rootDispersion, afterDispersion, dispersionRead, dispersionLength⟩ :=
      exists_takeWord? (show 4 ≤ afterDelay.length by omega)
    obtain ⟨referenceId, afterId, idRead, idLength⟩ :=
      exists_takeWord? (show 4 ≤ afterDispersion.length by omega)
    obtain ⟨reference, afterReference, referenceRead, referenceLength⟩ :=
      exists_takeStamp? (show 8 ≤ afterId.length by omega)
    obtain ⟨origin, afterOrigin, originRead, originLength⟩ :=
      exists_takeStamp? (show 8 ≤ afterReference.length by omega)
    obtain ⟨receive, afterReceive, receiveRead, receiveLength⟩ :=
      exists_takeStamp? (show 8 ≤ afterOrigin.length by omega)
    obtain ⟨transmit, afterTransmit, transmitRead, transmitLength⟩ :=
      exists_takeStamp? (show 8 ≤ afterReceive.length by omega)
    have ended : afterTransmit = [] := List.length_eq_zero_iff.mp (by omega)
    let packet : Packet :=
      { flags, stratum, poll := poll.toInt8, precision := precision.toInt8
        rootDelay, rootDispersion, referenceId
        reference, origin, receive, transmit }
    have read : decode? (flags :: stratum :: poll :: precision :: tail) = some packet := by
      simp [decode?, delayRead, dispersionRead, idRead, referenceRead, originRead,
        receiveRead, transmitRead, ended, packet]
    exact ⟨packet, decode?_eq_some_iff.mp read⟩
  | [] | [_] | [_, _] | [_, _, _] =>
    simp only [List.length_cons, List.length_nil] at length
    omega

theorem decode?_eq_none_iff {bytes : List UInt8} :
    decode? bytes = none ↔ bytes.length ≠ 48 := by
  constructor
  · intro unread length
    obtain ⟨packet, rfl⟩ := exists_encode_eq length
    rw [decode?_encode] at unread
    cases unread
  · intro wrong
    cases read : decode? bytes with
    | none => rfl
    | some packet =>
      rw [decode?_eq_some_iff.mp read] at wrong
      exact (wrong rfl).elim

theorem mode_eq_of_head? {packet : Packet} {first : UInt8}
    (leads : packet.encode.head? = some first) : packet.mode = first.toNat % 8 := by
  have flags : packet.flags = first := Option.some.inj leads
  rw [mode, flags]

end Packet

theorem readReply_eq_ok_iff {bytes : List UInt8} {packet : Packet} :
    readReply bytes = .ok packet ↔ bytes = packet.encode ∧ packet.mode = 4 := by
  unfold readReply
  cases read : Packet.decode? bytes with
  | none =>
    constructor
    · intro refused
      cases refused
    · rintro ⟨rfl, -⟩
      rw [Packet.decode?_encode] at read
      cases read
  | some other =>
    obtain rfl := Packet.decode?_eq_some_iff.mp read
    dsimp only
    split
    · rename_i server
      constructor
      · intro accepted
        cases accepted
        exact ⟨rfl, server⟩
      · rintro ⟨written, -⟩
        have same := (Packet.decode?_encode other).symm.trans
          (Packet.decode?_eq_some_iff.mpr written)
        rw [Option.some.inj same]
    · rename_i client
      constructor
      · intro refused
        cases refused
      · rintro ⟨written, server⟩
        have same := (Packet.decode?_encode other).symm.trans
          (Packet.decode?_eq_some_iff.mpr written)
        rw [Option.some.inj same] at client
        exact (client server).elim

namespace Request

/-- A request is its first byte, 39 zeros and the stamp. -/
theorem bytes_eq (request : Request) :
    request.bytes = Packet.packFlags 0 request.version.toNat 3 ::
      (List.replicate 39 0 ++ stampBytes request.transmit) := by
  have word : wordBytes 0 = List.replicate 4 0 := by decide
  have stamp : stampBytes {} = List.replicate 8 0 := by decide
  have byte : Int8.toUInt8 0 = 0 := by decide
  simp only [bytes, packet, Packet.encode, word, stamp, byte]
  rfl

theorem fields_packet (request : Request) :
    request.packet.leap = 0 ∧ request.packet.version = request.version.toNat % 8 ∧
      request.packet.mode = 3 := by
  simp only [packet, Packet.leap, Packet.version, Packet.mode, Packet.packFlags,
    UInt8.toNat_ofNat']
  omega

theorem bytes_eq_zero (request : Request) {position : Nat} (afterFirst : 1 ≤ position)
    (beforeStamp : position < 40) : request.bytes[position]? = some 0 := by
  obtain ⟨offset, rfl⟩ := Nat.exists_eq_add_of_le' afterFirst
  have inside : offset < (List.replicate 39 (0 : UInt8)).length := by
    rw [List.length_replicate]
    omega
  rw [bytes_eq, List.getElem?_cons_succ, List.getElem?_append_left inside,
    List.getElem?_replicate, if_pos (by omega)]

theorem set_bytes (request : Request) (first : UInt8) :
    request.bytes.set 0 first = { request.packet with flags := first }.encode := rfl

end Request

/-- Replies are read from exactly those 48 bytes whose first has the mode of a server,
and a reply that was read is written as the same bytes; every packet with that mode is
read back as it was written.  A request takes 48 bytes, is a packet of a client with
the version's last three bits, and has zeros between its first byte and its stamp; with the
mode of a server in the first byte it is read as a reply with that very stamp. -/
theorem readReply_bijective :
    (∀ bytes, (∃ packet, readReply bytes = .ok packet) ↔
      bytes.length = 48 ∧ ∃ first, bytes.head? = some first ∧ first.toNat % 8 = 4) ∧
    (∀ bytes packet, readReply bytes = .ok packet → packet.encode = bytes) ∧
    (∀ packet : Packet, packet.mode = 4 → readReply packet.encode = .ok packet) ∧
    ∀ request : Request,
      request.bytes.length = 48 ∧
      (∃ packet, Packet.decode? request.bytes = some packet ∧ packet.leap = 0 ∧
        packet.version = request.version.toNat % 8 ∧ packet.mode = 3) ∧
      (∀ position, 1 ≤ position → position < 40 → request.bytes[position]? = some 0) ∧
      ∀ first : UInt8, first.toNat % 8 = 4 →
        ∃ packet, readReply (request.bytes.set 0 first) = .ok packet ∧
          packet.transmit = request.transmit := by
  refine ⟨?_, ?_, ?_, ?_⟩
  · intro bytes
    constructor
    · rintro ⟨packet, accepted⟩
      obtain ⟨rfl, server⟩ := readReply_eq_ok_iff.mp accepted
      exact ⟨packet.length_encode, packet.flags, rfl, server⟩
    · rintro ⟨length, first, leads, server⟩
      obtain ⟨packet, rfl⟩ := Packet.exists_encode_eq length
      rw [← Packet.mode_eq_of_head? leads] at server
      exact ⟨packet, readReply_eq_ok_iff.mpr ⟨rfl, server⟩⟩
  · intro bytes packet accepted
    exact (readReply_eq_ok_iff.mp accepted).1.symm
  · intro packet server
    exact readReply_eq_ok_iff.mpr ⟨rfl, server⟩
  · intro request
    refine ⟨request.packet.length_encode, ⟨request.packet, ?_, request.fields_packet⟩, ?_, ?_⟩
    · exact Packet.decode?_encode request.packet
    · intro position afterFirst beforeStamp
      exact request.bytes_eq_zero afterFirst beforeStamp
    · intro first server
      refine ⟨{ request.packet with flags := first }, ?_, rfl⟩
      exact readReply_eq_ok_iff.mpr ⟨request.set_bytes first, server⟩

end TimeSync.Ntp
