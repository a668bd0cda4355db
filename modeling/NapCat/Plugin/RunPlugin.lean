/-
`run_plugin` of the backends that spawn a process: what the host does at each of its steps, and what
the child does in between. A rust plugin gets its event through a pipe, which the host writes before
it starts to wait under the timeout; a wasm plugin gets it as an argument. A pipe takes what there is
room for, and ends when the child and all that it has started have closed it; time passes only while
the host is suspended.
-/
import NapCat.Plugin.Manager
import NapCat.Lib.Json.Serde
import NapCat.Lib.Utf8

namespace NapCat.Plugin

/-! ## Events and actions as JSON -/

def PluginEvent.toJson : PluginEvent → Json
  | .load => .obj [("type", .str "load")]
  | .unload => .obj [("type", .str "unload")]
  | .message payload source =>
    .obj [("type", .str "message"), ("payload", payload), ("source", source.elim .null .str)]
  | .healthCheck => .obj [("type", .str "health_check")]

/-- What `serde_json::to_vec` makes of an event; it cannot fail. -/
def PluginEvent.body (event : PluginEvent) : List UInt8 := Text.utf8 event.toJson.toText

/-- The tag of an internally tagged enum, and what is left of the value. -/
def tagged : Json → Except Json.Error (String × Json)
  | .obj fs =>
    match fs.filter fun f => f.1 = "type" with
    | [] => .error (.missingField "type")
    | (_, tag) :: more =>
      (Json.asString tag).bind fun name =>
        if more = [] then .ok (name, .obj (fs.filter fun f => f.1 ≠ "type")) else .error (.duplicateField "type")
  | .arr (tag :: rest) => (Json.asString tag).map fun name => (name, .arr rest)
  | .arr [] => .error (.missingField "type")
  | _ => .error .invalidType

/-- A variant without fields ignores those of an object. -/
def unitVariant (action : PluginAction) : Json → Except Json.Error PluginAction
  | .arr (_ :: _) => .error .invalidLength
  | _ => .ok action

def PluginAction.ofContent (j : Json) : Except Json.Error PluginAction := do
  let (name, content) ← tagged j
  match name with
  | "continue" => unitVariant .continue content
  | "stop" => unitVariant .stop content
  | "emit" =>
    match ← Json.structFields ["payload"] content with
    | [payload] => return .emit (← Json.required "payload" Json.asValue payload)
    | _ => .error .invalidLength
  | name => .error (.unknownVariant name)

def PluginAction.ofJson : Json → Except Json.Error PluginAction := Json.buffered (.text 0) ofContent

/-- `PluginAction::from_stdout_bytes`; where the bytes stop being UTF-8 is not modelled. -/
def PluginAction.fromStdoutBytes (bytes : List UInt8) : Except PluginError (Option PluginAction) :=
  match Text.ofUtf8 bytes with
  | none => .error (.invalidUtf8 "invalid utf8 payload: invalid utf-8 sequence")
  | some body =>
    if Text.isBlank body then .ok none
    else match Json.fromText PluginAction.ofJson (Text.trim body) with
      | .ok action => .ok (some action)
      | .error e => .error (.deserialize ("invalid plugin action payload: " ++ e.text))

/-! ## A run -/

/-- How many bytes the pipes to and from the child hold. -/
structure Pipes where
  stdin : Nat
  stdout : Nat

/-- Where the host is: between two writes of the event, suspended in one, waiting for the output under
a timer armed at some time, or back with a result. -/
inductive RunPoint
  | writing (left : Nat)
  | blocked (left : Nat)
  | waiting (since : Nat)
  | done (r : Except PluginError (Option PluginAction))

def RunPoint.result : RunPoint → Option (Except PluginError (Option PluginAction))
  | .done r => some r
  | _ => none

theorem RunPoint.eq_of_result {p : RunPoint} {r : Except PluginError (Option PluginAction)}
    (h : p.result = some r) : p = .done r := by
  cases p with
  | done r' => rw [Option.some.inj h]
  | _ => cases h

inductive Child
  | running
  | exited (success : Bool) (time : Nat)
  deriving DecidableEq

/-- The pipe ends that processes started by the child still hold when it exits. -/
structure Held where
  stdin : Bool := false
  output : Bool := false
  deriving DecidableEq

/-- One run: `failure` is what the backend says of a child that fails, `printed` all that the child has
printed, and times are in milliseconds from the start. A process may hold the ends of the pipes to the
child, and those of the pipes whose output the host reads. -/
structure PluginRun where
  pipes : Pipes
  timeoutMs : UInt64
  failure : String
  host : RunPoint
  now : Nat := 0
  child : Child := .running
  stdinOpen : Bool := true
  stdinFill : Nat := 0
  outputOpen : Bool := true
  stdout : List UInt8 := []
  collected : List UInt8 := []
  printed : List UInt8 := []

namespace PluginRun

/-- The host is polled, time passes, and what the child does, or the processes it has started: they may go on
with the pipes they hold, and `closeStdin` and `closeOutput` are the end of the last one to hold them. -/
inductive Event
  | poll
  | tick
  | read (n : Nat)
  | closeStdin
  | print (bytes : List UInt8)
  | closeOutput
  | exit (success : Bool) (held : Held)
  deriving DecidableEq

def room (s : PluginRun) : Nat := s.pipes.stdin - s.stdinFill

/-- What `wait_with_output` makes of an exit. -/
def output (s : PluginRun) (success : Bool) (stdout : List UInt8) : Except PluginError (Option PluginAction) :=
  if success then PluginAction.fromStdoutBytes stdout else .error (.transport s.failure)

def brokenPipe : PluginError := .io "Broken pipe (os error 32)"

/-- The next write of an event, which is not empty: `write_all` goes on until all of it is written, and
the pipe is closed behind it. -/
def write (s : PluginRun) (left : Nat) : PluginRun :=
  if s.stdinOpen = false then { s with host := .done (.error brokenPipe) }
  else if s.room = 0 then { s with host := .blocked left }
  else if left ≤ s.room then { s with host := .waiting s.now, stdinFill := s.stdinFill + left }
  else { s with host := .writing (left - s.room), stdinFill := s.pipes.stdin }

@[simp] theorem write_child (s : PluginRun) (left : Nat) : (s.write left).child = s.child := by
  unfold write
  split_ifs <;> rfl

/-- A poll of the wait, which looks at the child and the end of its output before it looks at the timer. -/
def wait (s : PluginRun) (since : Nat) : Option PluginRun :=
  match s.child, s.outputOpen with
  | .exited success _, false => some { s with host := .done (s.output success (s.collected ++ s.stdout)) }
  | _, _ =>
    if since + s.timeoutMs.toNat ≤ s.now then some { s with host := .done (.error (.timeout s.timeoutMs)) }
    else if s.stdout = [] then none
    else some { s with collected := s.collected ++ s.stdout, stdout := [] }

/-- What the host does next, if there is anything for it to do. -/
def poll (s : PluginRun) : Option PluginRun :=
  match s.host with
  | .writing left => some (s.write left)
  | .blocked left => if s.stdinOpen = true ∧ s.room = 0 then none else some { s with host := .writing left }
  | .waiting since => s.wait since
  | .done _ => none

/-- The run is suspended: it has not returned, and has nothing to do. -/
def suspended (s : PluginRun) : Bool := s.poll.isNone && s.host.result.isNone

/-- What the child does, while it runs, or a process that it has started. -/
def childStep (s : PluginRun) : Event → Option PluginRun
  | .read n => if s.stdinOpen = true ∧ n ≤ s.stdinFill then some { s with stdinFill := s.stdinFill - n } else none
  | .closeStdin => some { s with stdinOpen := false }
  | .print bytes =>
    if s.outputOpen = true ∧ s.stdout.length + bytes.length ≤ s.pipes.stdout then
      some { s with stdout := s.stdout ++ bytes, printed := s.printed ++ bytes }
    else none
  | .closeOutput => some { s with outputOpen := false }
  | .exit success held =>
    if s.child = .running then
      some { s with
        child := .exited success s.now
        stdinOpen := s.stdinOpen && held.stdin
        outputOpen := s.outputOpen && held.output }
    else none
  | _ => none

def step (s : PluginRun) (e : Event) : Option PluginRun :=
  if s.host.result.isSome then none
  else match e with
    | .poll => s.poll
    | .tick => if s.suspended then some { s with now := s.now + 1 } else none
    | e => s.childStep e

/-- A run whose child has been spawned, with the event that goes through the pipe if there is one. -/
def start (pipes : Pipes) (timeoutMs : UInt64) (failure : String) (event : Option PluginEvent) : PluginRun where
  pipes
  timeoutMs
  failure
  host := match event with
    | some event => .writing event.body.length
    | none => .waiting 0

end PluginRun

/-! ## Decided by the child and the timeout -/

namespace PluginRun

/-- What the child and the timeout make of a run, by the time it has returned. -/
def decided (s : PluginRun) : Except PluginError (Option PluginAction) :=
  match s.child with
  | .exited success time =>
    if time ≤ s.timeoutMs.toNat then s.output success s.printed else .error (.timeout s.timeoutMs)
  | .running => .error (.timeout s.timeoutMs)

/-- The run returns even if the child does nothing more. -/
def Returns (s : PluginRun) : Prop :=
  ∃ es s' r, (∀ e ∈ es, e = .tick ∨ e = .poll) ∧ Run.exec step s es = some s' ∧ s'.host = .done r

/-- The timer of the wait is armed. -/
def Armed (s : PluginRun) : Prop := ∃ since, s.host = .waiting since ∧ s.now < since + s.timeoutMs.toNat

/-- The child and the timeout alone decide the run. A run that has returned has waited for its child or for
the timeout, and no run goes on past the timeout. -/
structure Right (s : PluginRun) : Prop where
  suspended : s.suspended = true → s.Armed ∧ s.Returns
  result : ∀ r, s.host = .done r → r = s.decided
  waited : ∀ r, s.host = .done r → s.child = .running → s.timeoutMs.toNat ≤ s.now
  inTime : s.now ≤ s.timeoutMs.toNat

def RightStep (s : PluginRun) (e : Event) : Prop := ∀ s', step s e = some s' → s'.Right

/-- A poll past the timeout of a run whose child has exited finds its output at an end. -/
def OutputEnds (s : PluginRun) (e : Event) : Prop :=
  e = .poll → ∀ since, s.host = .waiting since → s.child ≠ .running → since + s.timeoutMs.toNat ≤ s.now →
    s.outputOpen = false

/-- A write of the event finds the child's stdin open, and its pipe not full. -/
def WritesWell (s : PluginRun) (e : Event) : Prop :=
  e = .poll → ∀ left, s.host = .writing left → s.stdinOpen = true ∧ s.room ≠ 0

/-- Where a run is that has written well so far. -/
def PointTimely (s : PluginRun) : RunPoint → Prop
  | .writing _ => s.now = 0
  | .blocked _ => False
  | .waiting since => since = 0
  | .done r => r = s.decided ∧ (s.child = .running → s.timeoutMs.toNat ≤ s.now)

structure Timely (s : PluginRun) : Prop where
  point : s.PointTimely s.host
  inTime : s.now ≤ s.timeoutMs.toNat
  exited : ∀ success time, s.child = .exited success time → time ≤ s.now
  printed : s.collected ++ s.stdout = s.printed

/-! ### A wait ends -/

/-- A wait that is not over is under its timer, with nothing to read. -/
theorem wait_eq_none {s : PluginRun} {since : Nat} (h : s.wait since = none) :
    s.now < since + s.timeoutMs.toNat ∧ s.stdout = [] := by
  unfold wait at h
  split at h
  · cases h
  · split_ifs at h with hlate hout
    exact ⟨by omega, hout⟩

/-- A poll of the wait ends it, or reads what the child has printed. -/
theorem wait_some {s s' : PluginRun} {since : Nat} (h : s.wait since = some s') :
    (∃ success time, s.child = .exited success time ∧ s.outputOpen = false ∧
      s' = { s with host := .done (s.output success (s.collected ++ s.stdout)) }) ∨
    ((s.child = .running ∨ s.outputOpen = true) ∧ since + s.timeoutMs.toNat ≤ s.now ∧
      s' = { s with host := .done (.error (.timeout s.timeoutMs)) }) ∨
    (s.now < since + s.timeoutMs.toNat ∧ s.stdout ≠ [] ∧
      s' = { s with collected := s.collected ++ s.stdout, stdout := [] }) := by
  unfold wait at h
  split at h
  · rename_i success time hc ho
    cases h
    exact .inl ⟨success, time, hc, ho, rfl⟩
  · rename_i hnot
    have hgoes : s.child = .running ∨ s.outputOpen = true := by
      cases hc : s.child with
      | running => exact .inl rfl
      | exited success time =>
        cases ho : s.outputOpen with
        | true => exact .inr rfl
        | false => exact absurd ho (hnot success time hc)
    split_ifs at h with hlate hout
    · cases h
      exact .inr (.inl ⟨hgoes, hlate, rfl⟩)
    · cases h
      exact .inr (.inr ⟨by omega, hout, rfl⟩)

variable {s s' : PluginRun} {since : Nat}

theorem poll_waiting (h : s.host = .waiting since) : s.poll = s.wait since := by
  simp only [poll, h]

theorem step_poll_waiting (h : s.host = .waiting since) : step s .poll = s.wait since := by
  simp only [step, h, RunPoint.result, poll_waiting h, Option.isSome_none, Bool.false_eq_true, if_false]

theorem step_tick_waiting (h : s.host = .waiting since) (hw : s.wait since = none) :
    step s .tick = some { s with now := s.now + 1 } := by
  simp [step, suspended, poll_waiting h, hw, h, RunPoint.result]

theorem Returns.of_step {e : Event} (he : e = .tick ∨ e = .poll) (hs : step s e = some s') (h : s'.Returns) :
    s.Returns := by
  obtain ⟨es, t, r, hes, ht, hr⟩ := h
  refine ⟨e :: es, t, r, fun x hx => ?_, by rw [Run.exec_cons, hs]; exact ht, hr⟩
  rcases List.mem_cons.1 hx with rfl | hx
  · exact he
  · exact hes x hx

theorem Returns.of_done {r : Except PluginError (Option PluginAction)} (h : s.host = .done r) : s.Returns :=
  ⟨[], s, r, by simp, rfl, h⟩

theorem returns_of_wait (h : s.host = .waiting since) (hout : s.stdout = []) (hw : s.wait since = some s') :
    s.Returns := by
  refine Returns.of_step (.inr rfl) ((step_poll_waiting h).trans hw) ?_
  obtain ⟨_, _, _, _, rfl⟩ | ⟨_, _, rfl⟩ | ⟨_, hne, _⟩ := wait_some hw
  · exact Returns.of_done rfl
  · exact Returns.of_done rfl
  · exact absurd hout hne

/-- The timer fires, if nothing comes before. The induction is on the time left. -/
theorem returns_of_drained : ∀ (n : Nat) (s : PluginRun), s.host = .waiting since → s.stdout = [] →
    since + s.timeoutMs.toNat - s.now ≤ n → s.Returns := by
  intro n
  induction n with
  | zero =>
    intro s h hout hn
    cases hw : s.wait since with
    | none =>
      have := (wait_eq_none hw).1
      omega
    | some s' => exact returns_of_wait h hout hw
  | succ n ih =>
    intro s h hout hn
    cases hw : s.wait since with
    | none =>
      refine Returns.of_step (.inl rfl) (step_tick_waiting h hw) (ih _ h hout ?_)
      dsimp only
      omega
    | some s' => exact returns_of_wait h hout hw

/-- A suspended wait returns under its timer. -/
theorem suspended_waiting (h : s.host = .waiting since) (hs : s.suspended = true) : s.Armed ∧ s.Returns := by
  have hw : s.wait since = none := by
    rw [← poll_waiting h]
    simp only [suspended, Bool.and_eq_true, Option.isNone_iff_eq_none] at hs
    exact hs.1
  obtain ⟨hlt, hout⟩ := wait_eq_none hw
  exact ⟨⟨since, h, hlt⟩, returns_of_drained _ s h hout le_rfl⟩

/-! ### One step -/

theorem step_some {e : Event} (h : step s e = some s') :
    s.host.result = none ∧ ((e = .poll ∧ s.poll = some s') ∨
      (e = .tick ∧ s.suspended = true ∧ s' = { s with now := s.now + 1 }) ∨
      s.childStep e = some s') := by
  have hres : ¬ s.host.result.isSome = true → s.host.result = none := fun hr => by simpa using hr
  cases e with
  | poll =>
    simp only [step] at h
    split_ifs at h with hr
    exact ⟨hres hr, .inl ⟨rfl, h⟩⟩
  | tick =>
    simp only [step] at h
    split_ifs at h with hr hs
    exact ⟨hres hr, .inr (.inl ⟨rfl, hs, (Option.some.inj h).symm⟩)⟩
  | _ =>
    simp only [step] at h
    split_ifs at h with hr
    exact ⟨hres hr, .inr (.inr h)⟩

/-- What the child and its processes do leaves the host and the clock, and loses nothing that is printed. -/
theorem childStep_keeps {e : Event} (h : s.childStep e = some s') :
    s'.host = s.host ∧ s'.now = s.now ∧ s'.timeoutMs = s.timeoutMs ∧
      (s'.child = s.child ∨ s.child = .running ∧ ∃ success, s'.child = .exited success s.now) ∧
      (s.collected ++ s.stdout = s.printed → s'.collected ++ s'.stdout = s'.printed) := by
  cases e with
  | poll => cases h
  | tick => cases h
  | read n =>
    simp only [childStep] at h
    split_ifs at h
    cases h
    exact ⟨rfl, rfl, rfl, .inl rfl, id⟩
  | closeStdin | closeOutput =>
    cases h
    exact ⟨rfl, rfl, rfl, .inl rfl, id⟩
  | print bytes =>
    simp only [childStep] at h
    split_ifs at h
    cases h
    exact ⟨rfl, rfl, rfl, .inl rfl, fun hp => by rw [← List.append_assoc, hp]⟩
  | exit success held =>
    simp only [childStep] at h
    split_ifs at h with hc
    cases h
    exact ⟨rfl, rfl, rfl, .inr ⟨hc, success, rfl⟩, id⟩

theorem write_of_well (left : Nat) (ho : s.stdinOpen = true) (hr : s.room ≠ 0) :
    s.write left = { s with host := .waiting s.now, stdinFill := s.stdinFill + left } ∨
    s.write left = { s with host := .writing (left - s.room), stdinFill := s.pipes.stdin } := by
  unfold write
  rw [if_neg (by rw [ho]; exact Bool.noConfusion), if_neg hr]
  split_ifs
  · exact .inl rfl
  · exact .inr rfl

theorem timely_poll (h : Timely s) (hw : WritesWell s .poll) (ho : OutputEnds s .poll) (hs : s.poll = some s') :
    Timely s' := by
  have hp := h.point
  cases hh : s.host with
  | writing left =>
    rw [hh] at hp
    have hnow : s.now = 0 := hp
    obtain ⟨hopen, hr⟩ := hw rfl left hh
    simp only [poll, hh, Option.some.injEq] at hs
    obtain hwr | hwr := write_of_well left hopen hr <;> rw [hwr] at hs <;> subst hs
    · exact ⟨hnow, h.inTime, h.exited, h.printed⟩
    · exact ⟨hnow, h.inTime, h.exited, h.printed⟩
  | blocked left =>
    rw [hh] at hp
    exact hp.elim
  | waiting since =>
    rw [hh] at hp
    obtain rfl : since = 0 := hp
    rw [poll_waiting hh] at hs
    obtain ⟨success, time, hc, -, rfl⟩ | ⟨hgoes, hlate, rfl⟩ | ⟨-, -, rfl⟩ := wait_some hs
    · refine ⟨⟨?_, fun hrun => ?_⟩, h.inTime, h.exited, h.printed⟩
      · have ht : time ≤ s.timeoutMs.toNat := (h.exited success time hc).trans h.inTime
        simp only [decided, hc, if_pos ht, h.printed]
        rfl
      · rw [hc] at hrun
        cases hrun
    · have hc : s.child = .running := by
        by_contra hc
        have hclosed := ho rfl 0 hh hc hlate
        rcases hgoes with hrun | hopen
        · exact hc hrun
        · rw [hclosed] at hopen
          cases hopen
      rw [Nat.zero_add] at hlate
      exact ⟨⟨by simp only [decided, hc], fun _ => hlate⟩, h.inTime, h.exited, h.printed⟩
    · refine ⟨?_, h.inTime, h.exited, by rw [List.append_nil, h.printed]⟩
      show PointTimely _ s.host
      rw [hh]
      exact rfl
  | done r =>
    simp only [poll, hh] at hs
    cases hs

theorem timely_tick (h : Timely s) (hs : s.suspended = true) : Timely { s with now := s.now + 1 } := by
  have hp := h.point
  have hexited : ∀ success time, s.child = .exited success time → time ≤ s.now + 1 :=
    fun success time hc => (h.exited success time hc).trans (Nat.le_succ _)
  cases hh : s.host with
  | writing left => simp [suspended, poll, hh] at hs
  | blocked left =>
    rw [hh] at hp
    exact hp.elim
  | waiting since =>
    rw [hh] at hp
    obtain ⟨since', heq, hlt⟩ := (suspended_waiting hh hs).1
    cases hh.symm.trans heq
    obtain rfl : since = 0 := hp
    rw [Nat.zero_add] at hlt
    exact ⟨rfl, hlt, hexited, h.printed⟩
  | done r => simp [suspended, RunPoint.result, hh] at hs

theorem timely_child {e : Event} (h : Timely s) (hres : s.host.result = none) (hs : s.childStep e = some s') :
    Timely s' := by
  obtain ⟨hhost, hnow, htime, hchild, hprint⟩ := childStep_keeps hs
  refine ⟨?_, by rw [hnow, htime]; exact h.inTime, fun success time he => ?_, hprint h.printed⟩
  · have hp := h.point
    rw [hhost]
    cases hh : s.host with
    | writing left =>
      rw [hh] at hp
      exact hnow.trans hp
    | blocked left =>
      rw [hh] at hp
      exact hp
    | waiting since =>
      rw [hh] at hp
      exact hp
    | done r =>
      rw [hh] at hres
      cases hres
  · rcases hchild with hsame | ⟨-, ok, hex⟩
    · rw [hsame] at he
      rw [hnow]
      exact h.exited success time he
    · rw [hex] at he
      cases he
      exact hnow.ge

theorem timely_step {e : Event} (h : Timely s) (hw : WritesWell s e ∧ OutputEnds s e) (hs : step s e = some s') :
    Timely s' := by
  obtain ⟨hres, ⟨rfl, hp⟩ | ⟨rfl, hsus, rfl⟩ | hch⟩ := step_some hs
  · exact timely_poll h hw.1 hw.2 hp
  · exact timely_tick h hsus
  · exact timely_child h hres hch

theorem right_of_timely (h : Timely s) : s.Right := by
  have hp := h.point
  refine ⟨fun hs => ?_, fun r hr => ?_, fun r hr => ?_, h.inTime⟩
  · cases hh : s.host with
    | writing left => simp [suspended, poll, hh] at hs
    | blocked left =>
      rw [hh] at hp
      exact hp.elim
    | waiting since => exact suspended_waiting hh hs
    | done r => simp [suspended, RunPoint.result, hh] at hs
  · rw [hr] at hp
    exact hp.1
  · rw [hr] at hp
    exact hp.2

/-- What becomes of an exit is no failed write and no timeout. -/
theorem output_ne (s : PluginRun) (success : Bool) (stdout : List UInt8) :
    s.output success stdout ≠ .error brokenPipe ∧ ∀ ms, s.output success stdout ≠ .error (.timeout ms) := by
  unfold output
  split_ifs
  · unfold PluginAction.fromStdoutBytes
    split
    · exact ⟨fun h => (by cases h), fun ms h => (by cases h)⟩
    · split_ifs
      · exact ⟨fun h => (by cases h), fun ms h => (by cases h)⟩
      · split
        · exact ⟨fun h => (by cases h), fun ms h => (by cases h)⟩
        · exact ⟨fun h => (by cases h), fun ms h => (by cases h)⟩
  · exact ⟨fun h => (by cases h), fun ms h => (by cases h)⟩

/-- No result that the child and the timeout decide is that of a failed write. -/
theorem decided_ne_brokenPipe (s : PluginRun) : s.decided ≠ .error brokenPipe := by
  unfold decided
  split
  · split_ifs
    · exact (s.output_ne _ _).1
    · exact fun h => (by cases h)
  · exact fun h => (by cases h)

theorem suspended_blocked {left : Nat} (hh : s.host = .blocked left) (ho : s.stdinOpen = true) (hr : s.room = 0) :
    s.suspended = true := by
  simp only [suspended, poll, hh, ho, hr, RunPoint.result, and_self, if_true, Option.isNone_none, Bool.and_self]

/-- A write into a closed pipe fails the run; one into a full pipe suspends it without a timer. -/
theorem not_right_of_write {left : Nat} (h : ¬ (s.stdinOpen = true ∧ s.room ≠ 0)) : ¬ (s.write left).Right := by
  intro hw
  by_cases ho : s.stdinOpen = false
  · rw [write, if_pos ho] at hw
    exact decided_ne_brokenPipe _ (hw.result _ rfl).symm
  · rw [Bool.not_eq_false] at ho
    have hroom : s.room = 0 := by
      by_contra hroom
      exact h ⟨ho, hroom⟩
    rw [write, if_neg (by rw [ho]; exact Bool.noConfusion), if_pos hroom] at hw
    obtain ⟨⟨since, hsince, -⟩, -⟩ := hw.suspended (suspended_blocked rfl ho hroom)
    cases hsince

/-- A timeout over the held output of a child that has exited in time. -/
theorem not_right_of_held (h : Timely s) (hh : s.host = .waiting since) (hc : s.child ≠ .running)
    (hlate : since + s.timeoutMs.toNat ≤ s.now) (ho : s.outputOpen = true) :
    ∃ s', step s .poll = some s' ∧ ¬ s'.Right := by
  obtain ⟨success, time, hex⟩ : ∃ success time, s.child = .exited success time := by
    cases hchild : s.child with
    | running => exact absurd hchild hc
    | exited success time => exact ⟨success, time, rfl⟩
  have hwait : s.wait since = some { s with host := .done (.error (.timeout s.timeoutMs)) } := by
    rw [wait, hex, ho]
    exact if_pos hlate
  refine ⟨_, (step_poll_waiting hh).trans hwait, fun hr => ?_⟩
  have hdecided := hr.result _ rfl
  have hin : time ≤ s.timeoutMs.toNat := (h.exited success time hex).trans h.inTime
  rw [decided] at hdecided
  simp only [hex, if_pos hin] at hdecided
  exact (output_ne _ _ _).2 _ hdecided.symm

theorem rightStep_iff {e : Event} (h : Timely s) : RightStep s e ↔ WritesWell s e ∧ OutputEnds s e := by
  constructor
  · intro hr
    constructor
    · rintro rfl left hh
      have hs : step s .poll = some (s.write left) := by
        simp only [step, poll, hh, RunPoint.result, Option.isSome_none, Bool.false_eq_true, if_false]
      by_contra hw
      exact not_right_of_write hw (hr _ hs)
    · rintro rfl since hh hc hlate
      by_contra ho
      obtain ⟨s', hs, hnot⟩ := not_right_of_held h hh hc hlate (Bool.eq_true_of_not_eq_false ho)
      exact hnot (hr s' hs)
  · exact fun hw s' hs => right_of_timely (timely_step h hw hs)

theorem timely_start (pipes : Pipes) (timeoutMs : UInt64) (failure : String) (event : Option PluginEvent) :
    Timely (start pipes timeoutMs failure event) := by
  refine ⟨?_, Nat.zero_le _, fun _ _ h => (by cases h), rfl⟩
  cases event with
  | none => exact rfl
  | some event => exact rfl

/-- A run has nothing to write, now or later. -/
structure NoEvent (s : PluginRun) : Prop where
  timely : Timely s
  point : ∀ left, s.host ≠ .writing left

theorem NoEvent.writesWell {e : Event} (h : NoEvent s) : WritesWell s e := fun _ left hh => absurd hh (h.point left)

theorem NoEvent.step {e : Event} (h : NoEvent s) (ho : OutputEnds s e) (hs : step s e = some s') : NoEvent s' := by
  refine ⟨timely_step h.timely ⟨h.writesWell, ho⟩ hs, fun left => ?_⟩
  obtain ⟨hres, ⟨rfl, hp⟩ | ⟨rfl, -, rfl⟩ | hch⟩ := step_some hs
  · have hpt := h.timely.point
    cases hh : s.host with
    | writing left => exact absurd hh (h.point left)
    | blocked left =>
      rw [hh] at hpt
      exact hpt.elim
    | waiting since =>
      rw [poll_waiting hh] at hp
      obtain ⟨_, _, _, _, rfl⟩ | ⟨_, _, rfl⟩ | ⟨_, _, rfl⟩ := wait_some hp
      · exact RunPoint.noConfusion
      · exact RunPoint.noConfusion
      · exact h.point left
    | done r =>
      rw [hh] at hres
      cases hres
  · exact h.point left
  · rw [(childStep_keeps hch).1]
    exact h.point left

/-- A run without an event to write is decided by the child and the timeout, whatever the pipes hold, exactly if
the output of a child that has exited ends by the timeout. -/
theorem right_of_no_event (pipes : Pipes) (timeoutMs : UInt64) (failure : String) (es : List Event) :
    Run.Along step RightStep (start pipes timeoutMs failure none) es ↔
      Run.Along step OutputEnds (start pipes timeoutMs failure none) es := by
  have hstart : NoEvent (start pipes timeoutMs failure none) :=
    ⟨timely_start pipes timeoutMs failure none, fun _ => RunPoint.noConfusion⟩
  refine (Run.along_iff_of_inv (fun _ _ _ h ho hs => h.step ho hs) (fun s e h => ?_) es _ hstart).symm
  rw [rightStep_iff h.timely, and_iff_right h.writesWell]

end PluginRun

def RustPlugin.runPlugin (pipes : Pipes) (timeoutMs : UInt64) (event : Option PluginEvent) : PluginRun :=
  .start pipes timeoutMs "rust plugin returned non-zero exit code" event

/-- The event of a wasm plugin is an argument of the command. -/
def WasmPlugin.runPlugin (pipes : Pipes) (timeoutMs : UInt64) (_event : Option PluginEvent) : PluginRun :=
  .start pipes timeoutMs "wasm plugin runtime failed" none

namespace PluginRun

/-- A run of a rust plugin is decided by the child and the timeout alone exactly if each write of the
event finds the child's stdin open and not full, and the output of a child that has exited ends by the timeout. -/
theorem runPlugin_decided_iff (pipes : Pipes) (timeoutMs : UInt64) (event : Option PluginEvent) (es : List Event) :
    Run.Along step RightStep (RustPlugin.runPlugin pipes timeoutMs event) es ↔
      Run.Along step (fun s e => WritesWell s e ∧ OutputEnds s e) (RustPlugin.runPlugin pipes timeoutMs event) es := by
  refine (Run.along_iff_of_inv (fun _ _ _ => timely_step) (fun _ _ h => (rightStep_iff h).symm) es _ ?_).symm
  exact timely_start pipes timeoutMs _ event

/-- A run of a wasm plugin needs the latter only. -/
theorem wasm_runPlugin_decided_iff (pipes : Pipes) (timeoutMs : UInt64) (event : Option PluginEvent)
    (es : List Event) :
    Run.Along step RightStep (WasmPlugin.runPlugin pipes timeoutMs event) es ↔
      Run.Along step OutputEnds (WasmPlugin.runPlugin pipes timeoutMs event) es :=
  right_of_no_event pipes timeoutMs _ es

/-- A blocked write waits on, with no timer, while the child does not read. -/
theorem blocked_ticks {left : Nat} (n : Nat) : ∀ {s : PluginRun}, s.host = .blocked left → s.stdinOpen = true →
    s.room = 0 → Run.exec step s (List.replicate n .tick) = some { s with now := s.now + n } := by
  induction n with
  | zero => exact fun _ _ _ => rfl
  | succ n ih =>
    intro s hh ho hr
    have hs : step s .tick = some { s with now := s.now + 1 } := by
      simp only [step, suspended_blocked hh ho hr, hh, RunPoint.result, Option.isSome_none, Bool.false_eq_true,
        if_false, if_true]
    rw [List.replicate_succ, Run.exec_cons, hs, Option.bind_some, ih (s := { s with now := s.now + 1 }) hh ho hr]
    simp only [Nat.add_assoc, Nat.add_comm 1 n]

/-- A health check of a plugin whose stdin holds eight bytes and that never reads them: the host is suspended in
its second write however long it waits. A plugin that exits with success before the host writes to it: the run
fails. And a plugin that loads and exits with success, while a process that it has started holds its output: the
run times out. -/
theorem unread_event_not_right :
    (∃ s, Run.exec step (RustPlugin.runPlugin ⟨8, 8⟩ 200 (some .healthCheck)) [.poll, .poll] = some s ∧
      s.host = .blocked 15 ∧ (∀ n, ∃ t, Run.exec step s (List.replicate n .tick) = some t ∧ t.suspended = true) ∧
      ¬ s.Armed) ∧
    ¬ Run.Along step RightStep (RustPlugin.runPlugin ⟨8, 8⟩ 200 (some .healthCheck)) [.poll, .poll] ∧
    (∃ s, Run.exec step (RustPlugin.runPlugin ⟨65536, 65536⟩ 200 (some .healthCheck)) [.exit true {}, .poll] = some s ∧
      s.host = .done (.error (.io "Broken pipe (os error 32)")) ∧ s.decided = .ok none) ∧
    ¬ Run.Along step RightStep (RustPlugin.runPlugin ⟨65536, 65536⟩ 200 (some .healthCheck))
      [.exit true {}, .poll] ∧
    (∃ s, Run.exec step (RustPlugin.runPlugin ⟨65536, 65536⟩ 10 none)
        (.exit true { output := true } :: (List.replicate 10 .tick ++ [.poll])) = some s ∧
      s.host = .done (.error (.timeout 10)) ∧ s.decided = .ok none) := by
  refine ⟨⟨_, rfl, rfl, fun n => ⟨_, blocked_ticks n rfl rfl rfl, suspended_blocked rfl rfl rfl⟩, ?_⟩, fun h => ?_,
    ⟨_, rfl, rfl, rfl⟩, fun h => ?_, ⟨_, rfl, rfl, rfl⟩⟩
  · rintro ⟨since, h, -⟩
    cases h
  · have hright := (h.2 _ rfl).1 _ rfl
    obtain ⟨since, hsince, -⟩ := (hright.suspended (suspended_blocked rfl rfl rfl)).1
    cases hsince
  · have hright := (h.2 _ rfl).1 _ rfl
    cases hright.result _ rfl

end PluginRun

end NapCat.Plugin
