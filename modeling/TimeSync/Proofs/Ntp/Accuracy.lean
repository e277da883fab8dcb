import TimeSync.Proofs.Ntp.Eras

/-!
# How far an offset can be off

A server that answers truthfully stamps its reply with the times at which the request
arrived and the reply left, both by its own clock.  Within the present era stamps carry
such times without loss.  What the client cannot know is how the time on the way was
divided between the two directions: the offset that it works out is off by half of the
difference between them, and half a microsecond more where that has to be rounded.
-/

namespace TimeSync.Ntp

namespace Reply

theorem byte_stamp (bytes : List UInt8) (position : Nat) {place : Nat} (inside : place < 8) :
    byte (stamp bytes position) place = byte bytes (position + place) := by
  simp only [byte, stamp, List.getD_eq_getElem?_getD, List.getElem?_take_of_lt inside,
    List.getElem?_drop]

theorem word_stamp (bytes : List UInt8) (position : Nat) :
    word (stamp bytes position) 0 = word bytes position ∧
      word (stamp bytes position) 4 = word bytes (position + 4) := by
  simp [word, byte_stamp, Nat.add_assoc]

theorem words_of_stamp {bytes : List UInt8} {position : Nat} {found : Stamp}
    (carries : stamp bytes position = stampBytes found) :
    word bytes position = found.seconds.toNat ∧
      word bytes (position + 4) = found.fraction.toNat := by
  obtain ⟨seconds, fraction⟩ := word_stamp bytes position
  rw [← seconds, ← fraction, carries]
  exact ⟨word_wordBytes found.seconds, word_wordBytes found.fraction⟩

theorem micros_of_stamp {bytes : List UInt8} {position : Nat} {time : Int}
    (inEra : InEra time) (carries : stamp bytes position = stampBytes (.ofUnixMicros time)) :
    micros bytes position = time ∧ 2208988800 ≤ word bytes position := by
  obtain ⟨seconds, fraction⟩ := words_of_stamp carries
  have written := Stamp.seconds_ofUnixMicros inEra
  have rounded := Stamp.fraction_ofUnixMicros time
  have late := inEra.1
  simp only [Stamp.epochOffset] at written
  rw [micros, seconds, fraction, rounded]
  omega

/-- A reply as a server writes it that got the request at `received` and answered it at
`answered`, by its own clock. -/
structure Honest (request reply : List UInt8) (received answered : Int) : Prop where
  length : reply.length = 48
  mode : mode reply = 4
  version : 1 ≤ version reply ∧ version reply ≤ 4
  leap : leap reply ≠ 3
  stratum : 1 ≤ stratum reply ∧ stratum reply ≤ 15
  echo : stamp reply 24 = stamp request 40
  received : stamp reply 32 = stampBytes (.ofUnixMicros received)
  answered : stamp reply 40 = stampBytes (.ofUnixMicros answered)

section Honest

variable {request reply : List UInt8} {sent arrived received answered : Int}

theorem Honest.micros_eq (honest : Honest request reply received answered)
    (receivedInEra : InEra received) (answeredInEra : InEra answered) :
    micros reply 32 = received ∧ micros reply 40 = answered :=
  ⟨(micros_of_stamp receivedInEra honest.received).1,
    (micros_of_stamp answeredInEra honest.answered).1⟩

theorem Honest.acceptable (honest : Honest request reply received answered)
    (receivedInEra : InEra received) (answeredInEra : InEra answered)
    (forward : 0 ≤ Ntp.delay sent received answered arrived) :
    Acceptable sent arrived request reply := by
  obtain ⟨first, second⟩ := honest.micros_eq receivedInEra answeredInEra
  refine ⟨honest.length, honest.mode, honest.version, honest.leap, honest.stratum, honest.echo,
    (micros_of_stamp receivedInEra honest.received).2,
    (micros_of_stamp answeredInEra honest.answered).2, ?_⟩
  rw [delay, first, second]
  exact forward

/-- An honest reply is accepted, and measured with the server's own times. -/
theorem Honest.judge_eq (honest : Honest (Request.sentAt sent).bytes reply received answered)
    (receivedInEra : InEra received) (answeredInEra : InEra answered)
    (forward : 0 ≤ Ntp.delay sent received answered arrived) :
    judge sent arrived reply = .ok
      { offset := Ntp.offset sent received answered arrived
        delay := Ntp.delay sent received answered arrived
        stratum := reply.getD 1 0
        arrival := arrived } := by
  obtain ⟨first, second⟩ := honest.micros_eq receivedInEra answeredInEra
  apply judge_eq_ok_iff.mpr
  refine ⟨honest.acceptable receivedInEra answeredInEra forward, ?_⟩
  simp only [sample, delay, first, second, Ntp.offset, Ntp.delay]

end Honest

end Reply

/-- What is measured as delay is the time on the way, without the time at the server. -/
theorem delay_eq_add (sent theta out hold back : Int) :
    delay sent (sent + theta + out) (sent + theta + out + hold) (sent + out + hold + back) =
      out + back := by
  unfold delay
  ring

/-- The offset is off by at most half of the difference between the two ways, and by half
a microsecond for the rounding. -/
theorem abs_offset_sub_le (sent theta out hold back : Int) :
    2 * |offset sent (sent + theta + out) (sent + theta + out + hold)
      (sent + out + hold + back) - theta| ≤ |out - back| + 1 := by
  have measured : sent + theta + out - sent +
      (sent + theta + out + hold - (sent + out + hold + back)) =
        2 * theta + (out - back) := by ring
  rw [offset, measured]
  -- At most one microsecond is left over, on either side of zero.
  have halves := Int.mul_tdiv_add_tmod (2 * theta + (out - back)) 2
  have above := Int.tmod_lt_of_pos (2 * theta + (out - back)) two_pos
  have below := Int.lt_tmod_of_pos (2 * theta + (out - back)) two_pos
  have error := abs_cases ((2 * theta + (out - back)).tdiv 2 - theta)
  have difference := abs_cases (out - back)
  omega

namespace Client

variable {ε κ : Type}

theorem utcMicros_of_query {client : Client} {transport : Transport ε κ}
    {clock : LocalClock ε} {host : String} {port : UInt16} {timeout : Duration}
    {context : Context ε} {sample : Sample}
    (succeeds : (client.query transport clock host port timeout context).1 = .ok sample)
    {reading : Int} (fits : Micros.Fits (reading + sample.offset)) :
    (client.query transport clock host port timeout context).2.1.utcMicros reading =
      reading + sample.offset := by
  have remembered : (client.query transport clock host port timeout context).2.1 =
      client.remember (client.query transport clock host port timeout context).1 := rfl
  rw [remembered, succeeds]
  exact Micros.wrap_of_fits fits

/-- If the server is reached and answers honestly, a query succeeds, whatever the offset of
its clock, however long the request, the server and the reply take, and even if the request
leaves at a time outside the era.  The delay is exact.  The offset, and so the time that
the client tells from then on as far as 64 bits hold it, is off by at most half of the
delay, and by half a microsecond for the rounding. -/
theorem query_accurate (client : Client) {transport : Transport ε κ} {clock : LocalClock ε}
    {host : String} {port : UInt16} {timeout : Duration} {context opened answered : Context ε}
    {path : κ} {reply : List UInt8} {theta out hold back : Int}
    (reached : transport.connect host port timeout context = (.ok path, opened))
    (replied : transport.roundTrip path (Request.sentAt (clock opened)).bytes opened =
      (.ok reply, answered))
    (outward : 0 ≤ out) (homeward : 0 ≤ back)
    (arrived : clock answered = clock opened + out + hold + back)
    (receivedInEra : InEra (clock opened + theta + out))
    (answeredInEra : InEra (clock opened + theta + out + hold))
    (honest : Reply.Honest (Request.sentAt (clock opened)).bytes reply
      (clock opened + theta + out) (clock opened + theta + out + hold)) :
    ∃ sample, (client.query transport clock host port timeout context).1 = .ok sample ∧
      sample.delay = out + back ∧ 2 * |sample.offset - theta| ≤ sample.delay + 1 ∧
      ∀ reading, Micros.Fits (reading + sample.offset) →
        |(client.query transport clock host port timeout context).2.1.utcMicros reading
          - (reading + theta)| ≤ (sample.delay + 1) / 2 := by
  have measured := delay_eq_add (clock opened) theta out hold back
  have error := abs_offset_sub_le (clock opened) theta out hold back
  rw [← arrived] at measured error
  have forward : 0 ≤ Ntp.delay (clock opened) (clock opened + theta + out)
      (clock opened + theta + out + hold) (clock answered) := by omega
  have accepted := honest.judge_eq receivedInEra answeredInEra forward
  obtain ⟨sample, succeeds, offset, delay⟩ : ∃ sample,
      (client.query transport clock host port timeout context).1 = .ok sample ∧
      sample.offset = Ntp.offset (clock opened) (clock opened + theta + out)
        (clock opened + theta + out + hold) (clock answered) ∧
      sample.delay = Ntp.delay (clock opened) (clock opened + theta + out)
        (clock opened + theta + out + hold) (clock answered) :=
    ⟨_, exchange_eq_ok_iff.mpr ⟨path, opened, reply, answered, reached, replied, accepted⟩,
      rfl, rfl⟩
  rw [measured] at delay
  have unequal : |out - back| ≤ out + back := abs_le.mpr ⟨by omega, by omega⟩
  have bound : 2 * |sample.offset - theta| ≤ sample.delay + 1 := by
    rw [offset, delay]
    omega
  refine ⟨sample, succeeds, delay, bound, ?_⟩
  intro reading fits
  rw [utcMicros_of_query succeeds fits, add_sub_add_left_eq_sub]
  omega

/-- A clock five microseconds past the end of the era, and a server ten seconds behind it.
The time on the way is odd, so that the offset has to be rounded. -/
theorem query_accurate_behind :
    let late : Int := 2085978496000005
    let received : Int := late - 10000000 + 5
    let surroundings : Context Int := ⟨.origin, 0, {}, #[], late⟩
    let reply : List UInt8 → List UInt8 := fun request =>
      [0x24, 1] ++ List.replicate 22 0 ++ Reply.stamp request 40
        ++ stampBytes (.ofUnixMicros received) ++ stampBytes (.ofUnixMicros (received + 1))
    let transport : Transport Int Unit :=
      { connect := fun _ _ _ context => (.ok (), context)
        roundTrip := fun _ request context =>
          (.ok (reply request), context.withEnv (context.env + 5 + 1 + 2)) }
    let answer := ({} : Client).query transport Context.env "time" 123 .zero surroundings
    ∃ sample, answer.1 = .ok sample ∧ sample.delay = 7 ∧
      2 * |sample.offset - (-10000000)| ≤ sample.delay + 1 ∧
      ∀ reading, Micros.Fits (reading + sample.offset) →
        |answer.2.1.utcMicros reading - (reading + (-10000000))| ≤ (sample.delay + 1) / 2 := by
  intro late received surroundings reply transport answer
  have replied : transport.roundTrip () (Request.sentAt (surroundings.env)).bytes surroundings =
      (.ok (reply (Request.sentAt late).bytes), surroundings.withEnv (late + 5 + 1 + 2)) := rfl
  have honest : Reply.Honest (Request.sentAt late).bytes (reply (Request.sentAt late).bytes)
      (late + -10000000 + 5) (late + -10000000 + 5 + 1) :=
    ⟨rfl, by decide, by decide, by decide, by decide, rfl, rfl, rfl⟩
  have receivedInEra : InEra (late + -10000000 + 5) := by decide
  have answeredInEra : InEra (late + -10000000 + 5 + 1) := by decide
  exact query_accurate {} rfl replied (show (0 : Int) ≤ 5 by decide)
    (show (0 : Int) ≤ 2 by decide) rfl receivedInEra answeredInEra honest

end Client

end TimeSync.Ntp
