import TimeSync.Context

/-!
# Processor time

A stopwatch on the processor clock that also gathers samples.  The samples are
summed with a running compensation for what rounding loses.  Every reading of
the clock may write a message, so the readings are given, in the order in which
they are taken.
-/

namespace TimeSync

structure ProcessorWatch where
  start : Float := 0.0
  stop : Float := 0.0
  running : Bool := false
  total : Float := 0.0
  compensation : Float := 0.0
  lastSample : Float := 0.0
  samples : Nat := 0

namespace ProcessorWatch

variable {ε : Type}

def startAt (watch : ProcessorWatch) (reading : Float) : ProcessorWatch :=
  { watch with start := reading, stop := reading, running := true }

def resetSamples (watch : ProcessorWatch) : ProcessorWatch :=
  { watch with total := 0.0, compensation := 0.0, lastSample := 0.0, samples := 0 }

def addSample (watch : ProcessorWatch) (sample : Float) : ProcessorWatch :=
  let corrected := sample - watch.compensation
  let total := watch.total + corrected
  { watch with
    lastSample := sample
    compensation := (total - watch.total) - corrected
    total
    samples := watch.samples + 1 }

/-- The mean of the samples, no number before the first. -/
def average (watch : ProcessorWatch) : Float :=
  if watch.samples = 0 then 0.0 / 0.0 else watch.total / Float.ofNat watch.samples

def begin (watch : ProcessorWatch) (context : Context ε) : ProcessorWatch × Context ε :=
  let (reading, context) := context.cpuSeconds
  (watch.startAt reading, context)

def restart (watch : ProcessorWatch) (context : Context ε) : ProcessorWatch × Context ε :=
  watch.resetSamples.begin context

def finish (watch : ProcessorWatch) (context : Context ε) : ProcessorWatch × Context ε :=
  if watch.running then
    let (reading, context) := context.cpuSeconds
    ({ watch with stop := reading, running := false }, context)
  else
    (watch, context)

/-- Seconds since the start, up to the stop if there was one. -/
def elapsed (watch : ProcessorWatch) (context : Context ε) : Float × Context ε :=
  if watch.running then
    let (reading, context) := context.cpuSeconds
    (reading - watch.start, context)
  else
    (watch.stop - watch.start, context)

/-- Ends one sample and begins the next.  A stopped watch only starts. -/
def record (watch : ProcessorWatch) (context : Context ε) :
    Float × ProcessorWatch × Context ε :=
  let (reading, context) := context.cpuSeconds
  if watch.running then
    let sample := reading - watch.start
    (sample, { watch.addSample sample with start := reading }, context)
  else
    (0.0, { watch.startAt reading with lastSample := 0.0 }, context)

@[simp] theorem now_begin (watch : ProcessorWatch) (context : Context ε) :
    (watch.begin context).2.now = context.now :=
  context.now_cpuSeconds

@[simp] theorem now_finish (watch : ProcessorWatch) (context : Context ε) :
    (watch.finish context).2.now = context.now := by
  unfold finish
  split
  · exact context.now_cpuSeconds
  · rfl

@[simp] theorem now_elapsed (watch : ProcessorWatch) (context : Context ε) :
    (watch.elapsed context).2.now = context.now := by
  unfold elapsed
  split
  · exact context.now_cpuSeconds
  · rfl

end ProcessorWatch

end TimeSync
