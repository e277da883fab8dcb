import TimeSync.Time.Instant
import TimeSync.Time.Micros

/-!
# The surroundings of a computation

Nothing here reads a clock or writes a message by itself.  A `Context` carries
the readings of the three clocks, the messages written so far and whatever
else surrounds the computation (`env`): a network, a script, another
component.  A step that takes time returns a context whose clock has moved.
-/

namespace TimeSync

inductive Level where
  | error
  | warn
  | info
  | debug
  | trace
deriving DecidableEq

def Level.name : Level → String
  | error => "ERROR"
  | warn => "WARN"
  | info => "INFO"
  | debug => "DEBUG"
  | trace => "TRACE"

structure Message where
  level : Level
  text : String
deriving DecidableEq

/-- The processor time used so far, in seconds and nanoseconds, of which there may be
more than a second or less than none; the system may refuse to tell it. -/
structure CpuClock where
  seconds : Int := 0
  nanos : Int := 0
  refused : Bool := false
deriving DecidableEq

structure Context (ε : Type) where
  now : Instant
  /-- The clock on the wall, in nanoseconds since 1970. -/
  wall : Int
  cpu : CpuClock
  log : Array Message
  env : ε

namespace Context

variable {ε δ : Type}

def note (context : Context ε) (level : Level) (text : String) : Context ε :=
  { context with log := context.log.push ⟨level, text⟩ }

def withEnv (context : Context ε) (env : δ) : Context δ :=
  { context with env }

/-- The system's clock: whole microseconds since 1970, rounded toward 1970. -/
def wallMicros (context : Context ε) : Int := Micros.wrap (context.wall.tdiv 1000)

/-- The processor seconds used so far, zero where the system refuses to tell. -/
def cpuSeconds (context : Context ε) : Float × Context ε :=
  if context.cpu.refused then
    (0.0, context.note .warn
      "clock_gettime(CLOCK_PROCESS_CPUTIME_ID) failed: Invalid argument (os error 22)")
  else
    let seconds := Float.ofInt context.cpu.seconds
    (seconds + Float.ofInt context.cpu.nanos / 1000000000.0, context)

@[simp] theorem now_note (context : Context ε) (level : Level) (text : String) :
    (context.note level text).now = context.now := rfl

@[simp] theorem env_note (context : Context ε) (level : Level) (text : String) :
    (context.note level text).env = context.env := rfl

@[simp] theorem now_withEnv (context : Context ε) (env : δ) :
    (context.withEnv env).now = context.now := rfl

@[simp] theorem env_withEnv (context : Context ε) (env : δ) :
    (context.withEnv env).env = env := rfl

@[simp] theorem now_cpuSeconds (context : Context ε) :
    context.cpuSeconds.2.now = context.now := by
  unfold cpuSeconds
  split <;> rfl

@[simp] theorem env_cpuSeconds (context : Context ε) :
    context.cpuSeconds.2.env = context.env := by
  unfold cpuSeconds
  split <;> rfl

end Context

end TimeSync
