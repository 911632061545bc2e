import Treasury.Activation.Engine

/-!
# Observers

How observers are told about an event, and with it how commands are given to the machine. A standing
order calls the machine from inside a notification, so telling and calling go round in a circle.
Every order calls once, so the circle is at most as deep as there are orders, and `notify` goes by
that depth.
-/

namespace Treasury.Engine

/-- Gives a command to the machine. -/
def perform (tell : Tell) (r : Rules) : Command → Run Reply
  | .start groups source => do
    let card ← match source with
      | none => pure none
      | some id => some <$> Run.play (Play.makeFromGame (·.cardNamed id))
    .outcome <$> start tell r groups card
  | .resume ids => .outcome <$> resume tell r ids
  | .cancel => .outcome <$> cancel tell r
  | .preview => return .queued (← get).preview

/-- Gives the command of an order to the machine from inside a notification, and reports what came
of it. -/
def carryOut (tell : Tell) (r : Rules) (o : StandingOrder) : Run Unit := do
  let done := (perform tell r o.command).run.run (← get)
  let report : Report :=
    { serial := o.serial, answer := done.1, boosts := done.2.table.game.boosts }
  set { done.2 with reports := done.2.reports ++ [report] }

/-- Tells one observer about an event. -/
def tellOne (tell : Tell) (r : Rules) (e : Event) (index : Nat) : Run Unit := do
  let m ← get
  match m.observers[index]? with
  | none => pure ()
  | some .recorder => set { m with record := m.record ++ [e] }
  | some (.order o) =>
    if o.moment = e.moment then
      -- The order counts the event first, so that it does not answer to its own call.
      let seen := o.seen + 1
      set { m with observers := m.observers.set index (.order { o with seen }) }
      if seen = o.nth then carryOut tell r o
    else pure ()

/-- Tells the observers about an event, in order. The calls that they make tell theirs with one
depth less, and at depth zero no order calls any more. -/
def notify (r : Rules) : Nat → Tell
  | 0, e => modify fun m =>
    if m.observers.any (!·.isOrder) then { m with record := m.record ++ [e] } else m
  | depth + 1, e => do
    (List.range (← get).observers.length).forM (tellOne (notify r depth) r e)

end Treasury.Engine

namespace Treasury.Machine

/-- How deep notifications can be nested. -/
def depth (m : Machine) : Nat := m.observers.countP (·.isOrder) + 1

/-- Runs a call of the engine, given how it tells the observers. -/
def run (m : Machine) (r : Rules) (call : Engine.Tell → Run α) : Except EngineError α × Machine :=
  (call (Engine.notify r m.depth)).run.run m

/-- Gives a command to the machine. -/
def command (m : Machine) (r : Rules) (c : Command) : Except EngineError Reply × Machine :=
  m.run r fun tell => Engine.perform tell r c

end Treasury.Machine
