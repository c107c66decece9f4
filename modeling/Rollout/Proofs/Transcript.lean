import Rollout.Proofs.Usage

/-!
# Transcripts

A transcript is what a story comes to without its surroundings: the calls of the pass with their
replies, and the notes that tell of a cancellation or of an entry that is left behind.
`Script.Speaks` says which transcripts a script may have. All that it knows of the signal is
whether the run was calm: in a calm run shutdown is never requested, and no call is cancelled.
-/

namespace Rollout

open Script

variable {α β : Type}

def leftBehindNote (e : DeployError) : Note := .progress ("Continuing after error: " ++ e.message)

def Note.isLeftBehind : Note → Bool
  | .progress line => "Continuing after error: ".toList.isPrefixOf line.toList
  | .log _ => false

def Note.isNotable (n : Note) : Bool := n.isLeftBehind || decide (n = cancelNote)

def Event.isScripted : Event → Bool
  | .began .pass _ => true
  | .ended .pass .. => true
  | .note n => n.isNotable
  | _ => false

/-- The calls of the pass with their replies, and what is told of cancellations and of entries
that are left behind. -/
def transcript (events : List Event) : List Event := events.filter Event.isScripted

@[simp] theorem transcript_append (before later : List Event) :
    transcript (before ++ later) = transcript before ++ transcript later :=
  List.filter_append ..

@[simp] theorem transcript_began (call : Call) (rest : List Event) :
    transcript (.began .pass call :: rest) = .began .pass call :: transcript rest := rfl

@[simp] theorem transcript_ended (call : Call) (reply : Reply call.Answer) (rest : List Event) :
    transcript (.ended .pass call reply :: rest) = .ended .pass call reply :: transcript rest := rfl

theorem transcript_note (n : Note) (rest : List Event) :
    transcript (.note n :: rest) = transcript [.note n] ++ transcript rest :=
  transcript_append [.note n] rest

/-- What is made of the events that a transcript keeps can be made of the transcript. -/
theorem filterMap_transcript {f : Event → Option α}
    (kept : ∀ e a, f e = some a → e.isScripted = true) (events : List Event) :
    (transcript events).filterMap f = events.filterMap f := by
  rw [transcript, List.filterMap_filter]
  refine congrArg (events.filterMap ·) (funext fun e => ?_)
  cases made : f e with
  | none => simp
  | some a => simp [kept e a made]

theorem filter_transcript {p : Event → Bool} (kept : ∀ e, p e = true → e.isScripted = true)
    (events : List Event) : (transcript events).filter p = events.filter p := by
  rw [transcript, List.filter_filter]
  refine congrArg (events.filter ·) (funext fun e => ?_)
  cases holds : p e with
  | false => rfl
  | true => simp [kept e holds]

/-- An event of a transcript stands in the list that the transcript is of. -/
theorem split_transcript {events u v : List Event} {e : Event}
    (eq : transcript events = u ++ e :: v) : ∃ before later,
      events = before ++ e :: later ∧ transcript before = u ∧ transcript later = v := by
  obtain ⟨before, rest, rfl, rfl, tail⟩ := List.filter_eq_append_iff.mp eq
  obtain ⟨skipped, later, rfl, none, _, rfl⟩ := List.filter_eq_cons_iff.mp tail
  refine ⟨before ++ skipped, later, by simp, ?_, rfl⟩
  rw [transcript_append]
  have silent : transcript skipped = [] := List.filter_eq_nil_iff.mpr none
  rw [silent, List.append_nil]
  rfl

theorem mem_transcript {events : List Event} {e : Event} (scripted : e.isScripted = true) :
    e ∈ transcript events ↔ e ∈ events := by
  rw [transcript, List.mem_filter]
  exact and_iff_left scripted

theorem isLeftBehind_leftBehindNote (e : DeployError) : (leftBehindNote e).isLeftBehind = true := by
  rw [leftBehindNote, Note.isLeftBehind, String.toList_append]
  exact List.isPrefixOf_iff_prefix.mpr (List.prefix_append _ _)

/-- A line that begins otherwise is not about an entry left behind. -/
theorem isLeftBehind_progress {line : String} (other : line.toList.head? ≠ some 'C') :
    (Note.progress line).isLeftBehind = false := by
  have words : "Continuing after error: ".toList = 'C' :: "ontinuing after error: ".toList := rfl
  rw [Note.isLeftBehind, words]
  cases eq : line.toList with
  | nil => rfl
  | cons c rest =>
    have different : 'C' ≠ c := by
      rintro rfl
      simp [eq] at other
    rw [List.isPrefixOf_cons_cons, beq_false_of_ne different, Bool.false_and]

theorem transcript_leftBehindNote (e : DeployError) :
    transcript [.note (leftBehindNote e)] = [.note (leftBehindNote e)] := by
  simp [transcript, Event.isScripted, Note.isNotable, isLeftBehind_leftBehindNote]

theorem transcript_cancelNote : transcript [.note cancelNote] = [.note cancelNote] := by
  simp [transcript, Event.isScripted, Note.isNotable]

theorem transcript_log {record : LogRecord} (other : record.message ≠ "Rollout cancelled") :
    transcript [.note (.log record)] = [] := by
  have different : Note.log record ≠ cancelNote := by
    rintro ⟨⟩
    exact other rfl
  simp [transcript, Event.isScripted, Note.isNotable, Note.isLeftBehind, different]

theorem transcript_progress {line : String} (other : line.toList.head? ≠ some 'C') :
    transcript [.note (.progress line)] = [] := by
  have different : Note.progress line ≠ cancelNote := by rintro ⟨⟩
  simp [transcript, Event.isScripted, Note.isNotable, isLeftBehind_progress other, different]

theorem Stage.Background.transcript_eq_nil {s later : Stage} {events : List Event}
    (background : s.Background events later) : transcript events = [] := by
  rw [transcript, List.filter_eq_nil_iff]
  intro e mem
  have admitted := background.admitted e mem
  rcases e with ⟨actor, call⟩ | ⟨actor, call, reply⟩ | n | record | change
  · cases actor with
    | pass => exact False.elim admitted
    | renewal => exact Bool.false_ne_true
  · cases actor with
    | pass => exact False.elim admitted
    | renewal => exact Bool.false_ne_true
  · exact False.elim admitted
  · exact Bool.false_ne_true
  · exact Bool.false_ne_true

def Event.begun? : Event → Option Call
  | .began .pass made => some made
  | _ => none

def begun (events : List Event) : List Call := events.filterMap Event.begun?

@[simp] theorem begun_append (before later : List Event) :
    begun (before ++ later) = begun before ++ begun later :=
  List.filterMap_append

@[simp] theorem begun_nil : begun [] = [] := rfl

@[simp] theorem begun_began (call : Call) (rest : List Event) :
    begun (.began .pass call :: rest) = call :: begun rest := rfl

theorem mem_begun {events : List Event} {call : Call} :
    call ∈ begun events ↔ .began .pass call ∈ events := by
  rw [begun, List.mem_filterMap]
  constructor
  · rintro ⟨e, mem, first⟩
    unfold Event.begun? at first
    split at first
    · cases first
      exact mem
    · cases first
  · intro mem
    exact ⟨_, mem, rfl⟩

theorem begun_transcript (events : List Event) : begun (transcript events) = begun events := by
  refine filterMap_transcript (fun e call first => ?_) events
  unfold Event.begun? at first
  split at first
  · rfl
  · cases first

/-- How a script stops before its end. -/
inductive Stop
  | error (e : DeployError)
  | panic (text : String)
  | hung

def Stop.toEnd : Stop → RunEnd α
  | .error e => .exit (.error e)
  | .panic text => .exit (.panic text)
  | .hung => .hung

namespace Stop

@[simp] theorem toEnd_ne_ok (stop : Stop) (a : α) : stop.toEnd ≠ .exit (.ok a) := by
  cases stop <;> rintro ⟨⟩

@[simp] theorem ok_ne_toEnd (stop : Stop) (a : α) : .exit (.ok a) ≠ (stop.toEnd : RunEnd α) :=
  (stop.toEnd_ne_ok a).symm

@[simp] theorem toEnd_eq_hung {stop : Stop} : (stop.toEnd : RunEnd α) = .hung ↔ stop = .hung := by
  cases stop <;> simp [toEnd]

@[simp] theorem hung_eq_toEnd {stop : Stop} : (.hung : RunEnd α) = stop.toEnd ↔ stop = .hung := by
  cases stop <;> simp [toEnd]

@[simp] theorem toEnd_inj {stop stop' : Stop} :
    (stop.toEnd : RunEnd α) = stop'.toEnd ↔ stop = stop' := by
  cases stop <;> cases stop' <;> simp [toEnd]

end Stop

/-- The transcripts that a script may have in a run that is calm or not. -/
inductive Script.Speaks (calm : Prop) : Script α → List Event → RunEnd α → Prop
  | done {exit} : Speaks calm (.done exit) [] (.exit exit)
  | note {n next x r} :
    Speaks calm next x r → Speaks calm (.note n next) (transcript [.note n] ++ x) r
  | checkpoint {next raised x r} :
    (calm → raised = false) → Speaks calm (next raised) x r → Speaks calm (.checkpoint next) x r
  /-- A call that is not begun. -/
  | refused {call next x r} : ¬ calm → call.cancellable = true →
    Speaks calm (next .cancelled) x r → Speaks calm (.call call next) x r
  | answered {call next reply x r} : (reply = .cancelled → ¬ calm ∧ call.cancellable = true) →
    Speaks calm (next reply) x r →
      Speaks calm (.call call next) (.began .pass call :: .ended .pass call reply :: x) r
  /-- A call that does not end while the run is watched. -/
  | unanswered {call next} : Speaks calm (.call call next) [.began .pass call] .hung
  | startRenewal {machines ttl interval next x r} :
    Speaks calm next x r → Speaks calm (.startRenewal machines ttl interval next) x r
  | stopRenewal {next x r} : Speaks calm next x r → Speaks calm (.stopRenewal next) x r
  /-- The end of the loop is not seen any more. -/
  | cutOff {next} : Speaks calm (.stopRenewal next) [] .hung

/-- What is left of a story is a transcript. -/
theorem Script.Tells.speaks_of {script : Script α} {s later : Stage} {events : List Event}
    {r : RunEnd α} (h : script.Tells s events r later) {calm : Prop}
    (down : calm → s.signal.StaysDown events) : script.Speaks calm (transcript events) r := by
  induction h with
  | done => exact .done
  | @note n _ s events _ _ _ ih =>
    rw [transcript_note]
    refine .note (ih fun calmly => ?_)
    have both : s.signal.StaysDown ([.note n] ++ events) := down calmly
    exact (Signal.staysDown_append.mp both).2
  | checkpoint _ ih => exact .checkpoint (fun calmly => (down calmly).start) (ih down)
  | @refused call _ s _ _ _ may _ ih =>
    have raised : call.cancellable = true ∧ s.signal.raised = true := Classical.not_not.mp may
    exact .refused (fun calmly => by simp [(down calmly).start] at raised) raised.1 (ih down)
  | @answered call _ s noise mid reply events _ _ _ background mayReply _ ih =>
    have split : calm → s.signal.StaysDown (.began .pass call :: noise) ∧
        mid.signal.StaysDown (.ended .pass call reply :: events) := fun calmly => by
      have both := Signal.staysDown_append.mp (down calmly)
      exact ⟨both.1, background.signal ▸ both.2⟩
    rw [transcript_append, transcript_began, transcript_ended, background.transcript_eq_nil]
    refine .answered (fun cancelled => ?_) (ih fun calmly => ?_)
    · obtain ⟨cancellable, raised⟩ := mayReply cancelled
      exact ⟨fun calmly => by simp [(split calmly).2.start] at raised, cancellable⟩
    · have rest : mid.signal.StaysDown ([.ended .pass call reply] ++ events) := (split calmly).2
      exact (Signal.staysDown_append.mp rest).2
  | unanswered _ background =>
    rw [transcript_began, background.transcript_eq_nil]
    exact .unanswered
  | @startRenewal _ _ _ _ s logs events _ _ logged _ ih =>
    have quiet : transcript logs = [] := by
      rw [transcript, List.filter_eq_nil_iff]
      intro e mem
      obtain ⟨record, rfl⟩ := logged e mem
      exact Bool.false_ne_true
    have same : s.signal.after logs = s.signal := Signal.after_eq_self fun e mem c eq => by
      obtain ⟨record, rfl⟩ := logged e mem
      cases eq
    rw [transcript_append, quiet]
    refine .startRenewal (ih fun calmly => ?_)
    have rest := (Signal.staysDown_append.mp (down calmly)).2
    rw [same] at rest
    exact rest
  | stopRenewal background _ ih =>
    rw [transcript_append, background.transcript_eq_nil]
    refine .stopRenewal (ih fun calmly => ?_)
    have rest := (Signal.staysDown_append.mp (down calmly)).2
    rw [← background.signal] at rest
    exact rest
  | cutOff background =>
    rw [background.transcript_eq_nil]
    exact .cutOff

theorem Script.Tells.speaks {script : Script α} {s later : Stage} {events : List Event}
    {r : RunEnd α} (h : script.Tells s events r later) :
    script.Speaks (s.signal.StaysDown events) (transcript events) r :=
  h.speaks_of id

/-- In a transcript a reply stands right after the beginning of its call. -/
theorem Script.Speaks.replied {script : Script α} {calm : Prop} {x u v : List Event} {r : RunEnd α}
    {made : Call} {reply : Reply made.Answer} (h : script.Speaks calm x r)
    (eq : x = u ++ .ended .pass made reply :: v) : ∃ w, u = w ++ [.began .pass made] := by
  induction h generalizing u with
  | done => simp at eq
  | @note n next x _ _ ih =>
    rcases split_append eq with ⟨mid, rfl, tail⟩ | ⟨mid, head, _⟩
    · obtain ⟨w, rfl⟩ := ih tail
      exact ⟨_, (List.append_assoc ..).symm⟩
    · have mem : Event.ended .pass made reply ∈ transcript [.note n] := by simp [head]
      simp [transcript] at mem
  | checkpoint _ _ ih => exact ih eq
  | refused _ _ _ ih => exact ih eq
  | @answered call _ _ _ _ _ _ ih =>
    rcases u with _ | ⟨first, _ | ⟨second, u⟩⟩
    · cases eq
    · cases eq
      exact ⟨[], rfl⟩
    · cases eq
      obtain ⟨w, rfl⟩ := ih rfl
      exact ⟨_ :: _ :: w, rfl⟩
  | unanswered =>
    rcases u with _ | ⟨first, u⟩
    · cases eq
    · simp at eq
  | startRenewal _ ih => exact ih eq
  | stopRenewal _ ih => exact ih eq
  | cutOff => simp at eq

namespace Script.Speaks

variable {calm : Prop} {x : List Event}

theorem done_inv {exit : Exit α} {r : RunEnd α} (h : (Script.done exit).Speaks calm x r) :
    x = [] ∧ r = .exit exit := by
  cases h with
  | done => exact ⟨rfl, rfl⟩

theorem note_inv {n : Note} {next : Script α} {r : RunEnd α}
    (h : (Script.note n next).Speaks calm x r) :
    ∃ y, x = transcript [.note n] ++ y ∧ next.Speaks calm y r := by
  cases h with
  | note tail => exact ⟨_, rfl, tail⟩

/-- A note that is not kept leaves no trace. -/
theorem skip {n : Note} {next : Script α} {r : RunEnd α} (quiet : transcript [.note n] = [])
    (h : (Script.note n next).Speaks calm x r) : next.Speaks calm x r := by
  obtain ⟨y, rfl, tail⟩ := h.note_inv
  rwa [quiet]

/-- A transcript of two scripts in a row is one of the first, cut short or followed by one of
the second. -/
theorem bind_inv {first : Script α} {next : α → Script β} {r : RunEnd β}
    (h : (first >>= next).Speaks calm x r) :
    (∃ a y z, first.Speaks calm y (.exit (.ok a)) ∧ (next a).Speaks calm z r ∧ x = y ++ z) ∨
    ∃ stop : Stop, first.Speaks calm x stop.toEnd ∧ r = stop.toEnd := by
  change (first.bind next).Speaks calm x r at h
  induction first generalizing x with
  | done exit =>
    cases exit with
    | ok a => exact .inl ⟨a, [], x, .done, h, rfl⟩
    | error e =>
      obtain ⟨rfl, rfl⟩ := h.done_inv
      exact .inr ⟨.error e, .done, rfl⟩
    | panic text =>
      obtain ⟨rfl, rfl⟩ := h.done_inv
      exact .inr ⟨.panic text, .done, rfl⟩
  | note n first ih =>
    cases h with
    | note h =>
      rcases ih h with ⟨a, y, z, h₁, h₂, rfl⟩ | ⟨stop, h₁, rfl⟩
      · exact .inl ⟨a, _, z, .note h₁, h₂, by simp⟩
      · exact .inr ⟨stop, .note h₁, rfl⟩
  | checkpoint first ih =>
    cases h with
    | checkpoint down h =>
      rcases ih _ h with ⟨a, y, z, h₁, h₂, rfl⟩ | ⟨stop, h₁, rfl⟩
      · exact .inl ⟨a, y, z, .checkpoint down h₁, h₂, rfl⟩
      · exact .inr ⟨stop, .checkpoint down h₁, rfl⟩
  | call made first ih =>
    cases h with
    | refused alarmed may h =>
      rcases ih _ h with ⟨a, y, z, h₁, h₂, rfl⟩ | ⟨stop, h₁, rfl⟩
      · exact .inl ⟨a, y, z, .refused alarmed may h₁, h₂, rfl⟩
      · exact .inr ⟨stop, .refused alarmed may h₁, rfl⟩
    | answered may h =>
      rcases ih _ h with ⟨a, y, z, h₁, h₂, rfl⟩ | ⟨stop, h₁, rfl⟩
      · exact .inl ⟨a, _, z, .answered may h₁, h₂, rfl⟩
      · exact .inr ⟨stop, .answered may h₁, rfl⟩
    | unanswered => exact .inr ⟨.hung, .unanswered, rfl⟩
  | startRenewal machines ttl interval first ih =>
    cases h with
    | startRenewal h =>
      rcases ih h with ⟨a, y, z, h₁, h₂, rfl⟩ | ⟨stop, h₁, rfl⟩
      · exact .inl ⟨a, y, z, .startRenewal h₁, h₂, rfl⟩
      · exact .inr ⟨stop, .startRenewal h₁, rfl⟩
  | stopRenewal first ih =>
    cases h with
    | stopRenewal h =>
      rcases ih h with ⟨a, y, z, h₁, h₂, rfl⟩ | ⟨stop, h₁, rfl⟩
      · exact .inl ⟨a, y, z, .stopRenewal h₁, h₂, rfl⟩
      · exact .inr ⟨stop, .stopRenewal h₁, rfl⟩
    | cutOff => exact .inr ⟨.hung, .cutOff, rfl⟩

/-- An attempt has the transcripts of its script. -/
theorem attempt_inv {first : Script α} {r : RunEnd (Exit α)}
    (h : first.attempt.Speaks calm x r) :
    (∃ exit, first.Speaks calm x (.exit exit) ∧ r = .exit (.ok exit)) ∨
    (first.Speaks calm x .hung ∧ r = .hung) := by
  induction first generalizing x with
  | done exit =>
    obtain ⟨rfl, rfl⟩ := h.done_inv
    exact .inl ⟨exit, .done, rfl⟩
  | note n first ih =>
    cases h with
    | note h =>
      rcases ih h with ⟨exit, h₁, rfl⟩ | ⟨h₁, rfl⟩
      · exact .inl ⟨exit, .note h₁, rfl⟩
      · exact .inr ⟨.note h₁, rfl⟩
  | checkpoint first ih =>
    cases h with
    | checkpoint down h =>
      rcases ih _ h with ⟨exit, h₁, rfl⟩ | ⟨h₁, rfl⟩
      · exact .inl ⟨exit, .checkpoint down h₁, rfl⟩
      · exact .inr ⟨.checkpoint down h₁, rfl⟩
  | call made first ih =>
    cases h with
    | refused alarmed may h =>
      rcases ih _ h with ⟨exit, h₁, rfl⟩ | ⟨h₁, rfl⟩
      · exact .inl ⟨exit, .refused alarmed may h₁, rfl⟩
      · exact .inr ⟨.refused alarmed may h₁, rfl⟩
    | answered may h =>
      rcases ih _ h with ⟨exit, h₁, rfl⟩ | ⟨h₁, rfl⟩
      · exact .inl ⟨exit, .answered may h₁, rfl⟩
      · exact .inr ⟨.answered may h₁, rfl⟩
    | unanswered => exact .inr ⟨.unanswered, rfl⟩
  | startRenewal machines ttl interval first ih =>
    cases h with
    | startRenewal h =>
      rcases ih h with ⟨exit, h₁, rfl⟩ | ⟨h₁, rfl⟩
      · exact .inl ⟨exit, .startRenewal h₁, rfl⟩
      · exact .inr ⟨.startRenewal h₁, rfl⟩
  | stopRenewal first ih =>
    cases h with
    | stopRenewal h =>
      rcases ih h with ⟨exit, h₁, rfl⟩ | ⟨h₁, rfl⟩
      · exact .inl ⟨exit, .stopRenewal h₁, rfl⟩
      · exact .inr ⟨.stopRenewal h₁, rfl⟩
    | cutOff => exact .inr ⟨.cutOff, rfl⟩

/-- What follows an attempt is told how it ended. -/
theorem attempt_bind_inv {first : Script α} {next : Exit α → Script β} {r : RunEnd β}
    (h : (first.attempt >>= next).Speaks calm x r) :
    (∃ exit y z, first.Speaks calm y (.exit exit) ∧ (next exit).Speaks calm z r ∧ x = y ++ z) ∨
    (first.Speaks calm x .hung ∧ r = .hung) := by
  rcases h.bind_inv with ⟨exit, y, z, tried, told, rfl⟩ | ⟨stop, tried, rfl⟩
  · rcases tried.attempt_inv with ⟨exit', tried, same⟩ | ⟨_, same⟩
    · cases same
      exact .inl ⟨exit, y, z, tried, told, rfl⟩
    · cases same
  · rcases tried.attempt_inv with ⟨exit, _, same⟩ | ⟨cut, same⟩
    · simp at same
    · obtain rfl := Stop.toEnd_eq_hung.mp same
      exact .inr ⟨cut, rfl⟩

end Script.Speaks

/-- The script tells nothing that a transcript keeps, calls nobody, and ends like this. -/
structure Script.Closes (script : Script α) (exit : Exit α) : Prop where
  ends : ∀ {calm : Prop} {x : List Event} {r : RunEnd α}, script.Speaks calm x r →
    x = [] ∧ r = .exit exit

namespace Script.Closes

theorem done (exit : Exit α) : (Script.done exit).Closes exit := ⟨Speaks.done_inv⟩

theorem note {n : Note} {script : Script α} {exit : Exit α} (quiet : transcript [.note n] = [])
    (closes : script.Closes exit) : (Script.note n script).Closes exit :=
  ⟨fun h => closes.ends (h.skip quiet)⟩

end Script.Closes

namespace Script.Speaks

variable {calm : Prop} {x : List Event}

theorem cancel_inv {r : RunEnd α} (h : (cancel : Script α).Speaks calm x r) :
    x = [.note cancelNote] ∧ r = .exit (.error .cancelled) := by
  obtain ⟨y, rfl, tail⟩ := note_inv h
  obtain ⟨rfl, rfl⟩ := done_inv tail
  exact ⟨transcript_cancelNote, rfl⟩

end Script.Speaks

def exchange (call : Call) (answer : call.Answer) : List Event :=
  [.began .pass call, .ended .pass call (.ok answer)]

/-- The transcripts of a request that does not succeed, and how the script stops with it. -/
inductive Breaks (calm : Prop) (blame : Failure → DeployError) (call : Call) :
    List Event → Stop → Prop
  | refused : ¬ calm → call.cancellable = true →
    Breaks calm blame call [.note cancelNote] (.error .cancelled)
  | abandoned : ¬ calm → call.cancellable = true →
    Breaks calm blame call
      [.began .pass call, .ended .pass call .cancelled, .note cancelNote] (.error .cancelled)
  | failed (failure : Failure) :
    Breaks calm blame call
      [.began .pass call, .ended .pass call (.failed failure)] (.error (blame failure))
  | panicked (text : String) :
    Breaks calm blame call [.began .pass call, .ended .pass call (.panicked text)] (.panic text)
  | unanswered : Breaks calm blame call [.began .pass call] .hung

theorem split_head {e₀ e : α} {rest u v : List α} (none : e ∉ rest)
    (eq : e₀ :: rest = u ++ e :: v) : u = [] ∧ e₀ = e ∧ rest = v := by
  cases u with
  | nil =>
    cases eq
    exact ⟨rfl, rfl, rfl⟩
  | cons _ u =>
    cases eq
    exact absurd (List.mem_append_right u List.mem_cons_self) none

namespace Breaks

variable {calm : Prop} {blame : Failure → DeployError} {c call : Call} {x u v : List Event}
  {stop : Stop}

/-- What stops with a call begins no other. -/
theorem next (breaks : Breaks calm blame c x stop) (eq : x = u ++ .began .pass call :: v) :
    u = [] ∧ c = call := by
  have first : ∀ rest, Event.began .pass call ∉ rest → .began .pass c :: rest = x →
      u = [] ∧ c = call := by
    rintro rest none rfl
    obtain ⟨rfl, same, _⟩ := split_head none eq
    cases same
    exact ⟨rfl, rfl⟩
  cases breaks with
  | refused =>
    have mem : Event.began .pass call ∈ [.note cancelNote] := by simp [eq]
    simp at mem
  | abandoned => exact first _ (by simp) rfl
  | failed failure => exact first _ (by simp) rfl
  | panicked text => exact first _ (by simp) rfl
  | unanswered => exact first _ (by simp) rfl

theorem begun_eq (breaks : Breaks calm blame c x stop) (mem : call ∈ begun x) : c = call := by
  obtain ⟨u, v, eq⟩ := List.append_of_mem (mem_begun.mp mem)
  exact (breaks.next eq).2

/-- A failure is the last that is told of a call. -/
theorem failed_last {failure : Failure} (breaks : Breaks calm blame c x stop)
    (eq : x = u ++ .ended .pass call (.failed failure) :: v) :
    c = call ∧ u = [.began .pass call] ∧ v = [] ∧ stop = .error (blame failure) := by
  rcases u with _ | ⟨first, _ | ⟨second, u⟩⟩
  · cases breaks <;> cases eq
  · cases breaks with
    | failed failure' =>
      cases eq
      exact ⟨rfl, rfl, rfl, rfl⟩
    | refused => cases eq
    | abandoned => cases eq
    | panicked text => cases eq
    | unanswered => cases eq
  · cases breaks with
    | abandoned =>
      cases u with
      | nil => cases eq
      | cons third u => simp at eq
    | refused => simp at eq
    | failed failure' => simp at eq
    | panicked text => simp at eq
    | unanswered => simp at eq

end Breaks

namespace Script.Speaks

variable {calm : Prop} {x : List Event}

theorem request_inv {blame : Failure → DeployError} {call : Call} {r : RunEnd call.Answer}
    (h : (request blame call).Speaks calm x r) :
    (∃ answer, x = exchange call answer ∧ r = .exit (.ok answer)) ∨
    ∃ stop, Breaks calm blame call x stop ∧ r = stop.toEnd := by
  cases h with
  | refused alarmed may h =>
    obtain ⟨rfl, rfl⟩ := cancel_inv h
    exact .inr ⟨_, .refused alarmed may, rfl⟩
  | @answered _ _ reply _ _ may h =>
    cases reply with
    | ok answer =>
      obtain ⟨rfl, rfl⟩ := done_inv h
      exact .inl ⟨answer, rfl, rfl⟩
    | failed failure =>
      obtain ⟨rfl, rfl⟩ := done_inv h
      exact .inr ⟨_, .failed failure, rfl⟩
    | panicked text =>
      obtain ⟨rfl, rfl⟩ := done_inv h
      exact .inr ⟨_, .panicked text, rfl⟩
    | cancelled =>
      obtain ⟨rfl, rfl⟩ := cancel_inv h
      exact .inr ⟨_, .abandoned (may rfl).1 (may rfl).2, rfl⟩
  | unanswered => exact .inr ⟨_, .unanswered, rfl⟩

/-- A call that is carried through hangs, or is replied to and the script closes. -/
theorem carryThrough_inv {call : Call} {next : Except Failure call.Answer → Script β}
    {r : RunEnd β} (ends : Reply call.Answer → Exit β) (carried : call.cancellable = false)
    (closes : ∀ reply, reply ≠ .cancelled →
      (Script.done (carry reply) >>= next).Closes (ends reply))
    (h : (carryThrough call >>= next).Speaks calm x r) :
    (x = [.began .pass call] ∧ r = .hung) ∨
    ∃ reply, reply ≠ .cancelled ∧ x = [.began .pass call, .ended .pass call reply] ∧
      r = .exit (ends reply) := by
  cases h with
  | refused _ may _ => simp [carried] at may
  | unanswered => exact .inl ⟨rfl, rfl⟩
  | @answered _ _ reply y _ may h =>
    have notCancelled : reply ≠ .cancelled := by
      rintro rfl
      simp [carried] at may
    have told : (Script.done (carry reply) >>= next).Speaks calm y r := by
      cases reply with
      | cancelled => exact absurd rfl notCancelled
      | _ => exact h
    obtain ⟨rfl, rfl⟩ := (closes reply notCancelled).ends told
    exact .inr ⟨reply, notCancelled, rfl, rfl⟩

end Script.Speaks

end Rollout
