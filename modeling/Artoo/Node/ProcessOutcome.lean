import Artoo.Node.ProcessStream
import Mathlib.Data.List.Induction

/-! What the stream of a run says of it: one end, the lines before it, and what a completion means. -/
namespace Artoo.Node.ProcessRun

variable {α μ τ δ : Type} {c : Process α μ τ δ} {w w' w'' : World α μ τ δ}

/-! ## What is waited with -/

/-- A handler of `close` that waits has the code of one that waited, or of the event; a stop stays. -/
structure Traced (w w' : World α μ τ δ) (codes : Option ℤ → Prop) : Prop where
  closing : ∀ x ∈ w'.closing, (∃ y ∈ w.closing, y.code = x.code) ∨ codes x.code
  stops : w.stopReason.isSome → w'.stopReason.isSome

section Traced

variable {codes : Option ℤ → Prop}

theorem traced_same (closing : w'.closing = w.closing)
    (stops : w.stopReason.isSome → w'.stopReason.isSome) : Traced w w' codes := by
  refine ⟨fun x there => .inl ⟨x, ?_, rfl⟩, stops⟩
  rw [← closing]
  exact there

theorem Traced.trans (first : Traced w w' codes) (last : Traced w' w'' codes) :
    Traced w w'' codes := by
  refine ⟨fun x there => ?_, fun stopped => last.stops (first.stops stopped)⟩
  rcases last.closing x there with ⟨y, there, is⟩ | new
  · rcases first.closing y there with ⟨z, there, is'⟩ | new
    · exact .inl ⟨z, there, is'.trans is⟩
    · rw [is] at new
      exact .inr new
  · exact .inr new

theorem Grows.traced (h : Grows w w') : Traced w w' codes :=
  traced_same h.closing fun stopped => by rw [h.stopReason]; exact stopped

theorem Ends.traced {last : LifecyclePhase} (h : Ends w w' last) : Traced w w' codes :=
  traced_same h.closing fun stopped => by rw [h.stopReason]; exact stopped

theorem traced_beginTermination (w : World α μ τ δ) : Traced w (beginTermination c w) codes := by
  unfold beginTermination
  cases w.termination with
  | notBegun =>
    dsimp only
    split_ifs
    · exact traced_same rfl id
    · exact traced_same rfl id
  | _ => exact traced_same rfl id

theorem traced_stopWith (reason : Text) (w : World α μ τ δ) :
    Traced w (stopWith c reason w) codes := by
  have noted : Traced w { w with stopReason := some reason } codes := traced_same rfl fun _ => rfl
  unfold stopWith kill
  split_ifs
  · exact noted
  · exact noted.trans (traced_beginTermination _)

theorem stopped_stopWith (reason : Text) (w : World α μ τ δ) :
    (stopWith c reason w).stopReason.isSome := by
  unfold stopWith kill
  split_ifs
  · rfl
  · have kept : Traced { w with stopReason := some reason } (beginTermination c _) fun _ => False :=
      traced_beginTermination _
    exact kept.stops rfl

theorem traced_onSpawn (w : World α μ τ δ) : Traced w (onSpawn c w) codes := by
  have spawned : Traced w { w with spawned := true } codes := traced_same rfl id
  have pushed := spawned.trans (grows_push (e := .lifecycle .started none) rfl _).traced
  unfold onSpawn
  dsimp only
  split_ifs
  · exact traced_same rfl id
  · exact pushed
  · exact pushed.trans (traced_same rfl id)

theorem traced_onError (message : Text) (w : World α μ τ δ) :
    Traced w (onError c message w) codes := by
  unfold onError
  split_ifs
  · exact traced_same rfl id
  · exact (grows_feedText .stderr _ w).traced

theorem traced_onExit (w : World α μ τ δ) : Traced w (onExit c w) codes := by
  have seen : Traced w { w with childExitObserved := true } codes := traced_same rfl id
  have begun := seen.trans (traced_beginTermination (c := c) _)
  unfold onExit
  dsimp only
  split_ifs
  · exact seen
  · cases (beginTermination c { w with childExitObserved := true }).termination with
    | settled result =>
      cases result with
      | ok u => exact begun
      | error message => exact begun.trans (grows_feedText .stderr _ _).traced
    | _ => exact begun.trans (traced_same rfl id)

theorem traced_onTerminated (result : Except Text Unit) (w : World α μ τ δ) :
    Traced w (onTerminated c result w) codes := by
  unfold onTerminated
  cases w.termination with
  | pending =>
    cases result with
    | ok u => exact traced_same rfl id
    | error message =>
      dsimp only
      have settled : Traced w { w with termination := .settled (.error message), watching := 0 } codes :=
        traced_same rfl id
      exact settled.trans (grows_foldl (fun w text => grows_feedText .stderr text w) _ _).traced
  | _ => exact traced_same rfl id

theorem traced_await {closing : Closing} (new : codes closing.code) (w : World α μ τ δ) :
    Traced w (await closing w) codes := by
  refine ⟨fun x there => ?_, id⟩
  rcases List.mem_append.mp there with old | is
  · exact .inl ⟨x, old, rfl⟩
  · rw [List.mem_singleton.mp is]
    exact .inr new

theorem traced_afterGroup {code : Option ℤ} {signal : Option Text}
    {collected : Except Text (List α)} (inv : Inv w) (new : codes code) :
    Traced w (afterGroup c code signal collected w) codes := by
  cases going : w.stopReason with
  | some reason =>
    unfold afterGroup
    rw [if_pos (by rw [going]; rfl)]
    exact traced_await new w
  | none =>
    cases ended : w.ended with
    | false =>
      obtain ⟨last, ends, -⟩ : ∃ last, Ends w (afterGroup c code signal collected w) last ∧ _ :=
        ends_afterGroup ended (inv.trans ended) going
      exact ends.traced
    | true => exact (grows_afterGroup ended (inv.trans ended) going).traced

theorem traced_finishWith (phase : LifecyclePhase) (reason : Text) (inv : Inv w) :
    Traced w (finishWith c phase reason w) codes := by
  cases ended : w.ended with
  | false => exact (ends_finishWith phase reason ended (inv.trans ended)).traced
  | true =>
    unfold finishWith
    rw [if_pos (inv.trans ended)]
    exact (Grows.refl w).traced

theorem traced_onClose {code : Option ℤ} {signal : Option Text} {collected : Except Text (List α)}
    (inv : Inv w) (new : codes code) : Traced w (onClose c code signal collected w) codes := by
  have seen : Traced w (stdioClosed w) codes := traced_same rfl id
  unfold onClose
  dsimp only
  split_ifs
  · exact (seen.trans (traced_beginTermination _)).trans (traced_await new _)
  · exact seen.trans (traced_afterGroup inv new)

theorem traced_goOn (index : ℕ) (w : World α μ τ δ) : Traced w (goOn index w) codes :=
  ⟨fun x there => .inl ⟨x, (List.eraseIdx_sublist w.closing index).subset there, rfl⟩, id⟩

/-- Of a handler that waited. -/
theorem traced_onResume (index : ℕ) (collected : Except Text (List α)) (inv : Inv w) :
    Traced w (onResume c index collected w) fun code => ∃ y ∈ w.closing, y.code = code := by
  unfold onResume
  cases there : w.closing[index]? with
  | none => exact traced_same rfl id
  | some closing =>
    have gone : Traced w (goOn index w) fun code => ∃ y ∈ w.closing, y.code = code :=
      traced_goOn index w
    have goes : Traced w
        (if closing.cancelling then finishWith c .cancelled (w.stopReason.getD []) (goOn index w)
          else afterGroup c closing.code closing.signal collected (goOn index w))
        fun code => ∃ y ∈ w.closing, y.code = code := by
      split_ifs
      · exact gone.trans (traced_finishWith _ _ inv)
      · apply gone.trans
        exact traced_afterGroup inv ⟨closing, List.mem_of_getElem? there, rfl⟩
    dsimp only
    cases w.termination with
    | notBegun => exact goes
    | pending => exact traced_same rfl id
    | settled result =>
      cases result with
      | ok u => exact goes
      | error message =>
        dsimp only
        split_ifs
        · exact gone.trans (traced_same rfl id)
        · exact gone

end Traced

/-- A stop that is requested: of a run that is owned, only while nothing says that it has ended. -/
def Requests (c : Process α μ τ δ) (w : World α μ τ δ) : Event α → Prop
  | .stop _ => c.owned = false
  | .ownedStop _ closed exited running => c.owned = true ∧
      (closed || w.childExitObserved || w.childStdioClosed || exited || !running) = false
  | .startupAbort => True
  | .guardianError => w.guardianAttempted = true
  | _ => False

theorem stopped_step {event : Event α} (requested : Requests c w event) :
    (step c w event).stopReason.isSome := by
  cases event with
  | stop reason =>
    have unowned : c.owned = false := requested
    unfold step
    dsimp only
    rw [if_neg (by rw [unowned]; exact Bool.false_ne_true)]
    exact stopped_stopWith reason w
  | ownedStop reason closed exited running =>
    obtain ⟨owned, free⟩ := requested
    unfold step ownedStop
    dsimp only
    rw [if_pos owned, if_neg (by rw [free]; exact Bool.false_ne_true)]
    exact stopped_stopWith reason w
  | startupAbort => exact stopped_stopWith userCancelled _
  | guardianError =>
    have attempted : w.guardianAttempted = true := requested
    unfold step
    dsimp only
    rw [if_pos attempted]
    exact stopped_stopWith userCancelled w
  | _ => exact absurd requested id

/-- The code of the event, where it is a `close`. -/
def Closes (event : Event α) (code : Option ℤ) : Prop :=
  ∃ signal collected, event = .close code signal collected

theorem traced_step (inv : Inv w) (event : Event α) :
    Traced w (step c w event) (Closes event) := by
  cases event with
  | spawn => exact traced_onSpawn w
  | error message => exact traced_onError message w
  | data stream chunk => exact (grows_feed stream chunk w).traced
  | exit => exact traced_onExit w
  | close code signal collected => exact traced_onClose inv ⟨signal, collected, rfl⟩
  | terminated result => exact traced_onTerminated result w
  | resume index collected =>
    have resumed := traced_onResume (c := c) index collected inv
    exact ⟨fun x there => .inl ((resumed.closing x there).elim id id), resumed.stops⟩
  | stop reason =>
    unfold step
    dsimp only
    split_ifs
    · exact traced_same rfl id
    · exact traced_stopWith reason w
  | ownedStop reason closed exited running =>
    unfold step ownedStop
    dsimp only
    split_ifs
    · exact traced_same rfl id
    · exact traced_stopWith reason w
    · exact traced_same rfl id
  | startupAbort =>
    have aborted : Traced w { w with startupAborted := true }
        (Closes (.startupAbort : Event α)) := traced_same rfl id
    exact aborted.trans (traced_stopWith userCancelled _)
  | guardianError =>
    unfold step
    dsimp only
    split_ifs
    · exact traced_stopWith userCancelled w
    · exact traced_same rfl id

/-! ## A run -/

theorem run_append (events more : List (Event α)) :
    run c (events ++ more) = more.foldl (step c) (run c events) := List.foldl_append

theorem inv_run (events : List (Event α)) : Inv (run c events) := by
  induction events using List.reverseRecOn with
  | nil => rfl
  | append_singleton events event ih =>
    rw [run_append]
    exact (stepped_step ih event).inv

theorem stepped_run (events : List (Event α)) (event : Event α) :
    Stepped c (run c events) (run c (events ++ [event])) (Completes c (run c events) event) := by
  rw [run_append]
  exact stepped_step (inv_run events) event

/-- What has ended stays. -/
theorem ended_append (events more : List (Event α)) (ended : (run c events).ended = true) :
    (run c (events ++ more)).ended = true ∧ (run c (events ++ more)).items = (run c events).items := by
  induction more using List.reverseRecOn with
  | nil =>
    rw [List.append_nil]
    exact ⟨ended, rfl⟩
  | append_singleton more event ih =>
    rw [← List.append_assoc]
    obtain ⟨still, items⟩ := (stepped_run (c := c) (events ++ more) event).keeps ih.1
    exact ⟨still, items.trans ih.2⟩

/-- Events are only ever added. -/
theorem items_append (events more : List (Event α)) :
    (run c events).items <+: (run c (events ++ more)).items := by
  induction more using List.reverseRecOn with
  | nil => exact ⟨[], by rw [List.append_nil, List.append_nil]⟩
  | append_singleton more event ih =>
    rw [← List.append_assoc]
    apply ih.trans
    have stepped := stepped_run (c := c) (events ++ more) event
    cases ended : (run c (events ++ more)).ended with
    | true => exact ⟨[], by rw [List.append_nil, (stepped.keeps ended).2]⟩
    | false =>
      cases ended' : (run c (events ++ more ++ [event])).ended with
      | true =>
        obtain ⟨added, last, reason, items, -⟩ := stepped.ends ended ended'
        rw [items, List.append_assoc]
        exact List.prefix_append _ _
      | false =>
        obtain ⟨⟨added, items, -⟩, -⟩ := stepped.goes ended ended'
        rw [items]
        exact List.prefix_append _ _

theorem lines_initial : Lines c (initial c) := by
  intro stream
  cases stream <;> exact ⟨rfl, rfl⟩

/-- A run that goes on has shown no end, and every complete line. -/
theorem going_run (events : List (Event α)) (fresh : (run c events).ended = false) :
    (∀ e ∈ (run c events).items, isTerminal e = false) ∧ Lines c (run c events) := by
  induction events using List.reverseRecOn with
  | nil => exact ⟨nofun, lines_initial⟩
  | append_singleton events event ih =>
    cases ended : (run c events).ended with
    | true =>
      rw [(ended_append events [event] ended).1] at fresh
      exact absurd fresh.symm Bool.false_ne_true
    | false =>
      obtain ⟨⟨more, items, plain⟩, lines⟩ := (stepped_run events event).goes ended fresh
      obtain ⟨before, lines'⟩ := ih ended
      refine ⟨fun e there => ?_, lines lines'⟩
      rw [items] at there
      exact (List.mem_append.mp there).elim (before e) (plain e)

/-- The step at which a run ended. -/
structure Ended (c : Process α μ τ δ) (events before : List (Event α)) (event : Event α)
    (last : LifecyclePhase) : Prop where
  ran : ∃ after, events = before ++ event :: after
  open_ : (run c before).ended = false
  late : last ≠ .started
  completes : last = .completed → Completes c (run c before) event
  items : ∃ front reason, (run c events).items = front ++ [.lifecycle last reason] ∧
    ∀ e ∈ front, isTerminal e = false

theorem ended_run (events : List (Event α)) (ended : (run c events).ended = true) :
    ∃ before event last, Ended c events before event last := by
  induction events using List.reverseRecOn with
  | nil => exact absurd ended Bool.false_ne_true
  | append_singleton events event ih =>
    cases earlier : (run c events).ended with
    | true =>
      obtain ⟨before, event', last, was⟩ := ih earlier
      obtain ⟨after, is⟩ := was.ran
      refine ⟨before, event', last, ⟨after ++ [event], ?_⟩, was.open_, was.late, was.completes, ?_⟩
      · rw [is, List.append_assoc]
        rfl
      · rw [(ended_append events [event] earlier).2]
        exact was.items
    | false =>
      obtain ⟨more, last, reason, items, plain, late, completes⟩ :=
        (stepped_run events event).ends earlier ended
      refine ⟨events, event, last, ⟨[], rfl⟩, earlier, late, completes, (run c events).items ++ more,
        reason, items, fun e there => ?_⟩
      exact (List.mem_append.mp there).elim ((going_run events earlier).1 e) (plain e)

/-- A handler that waits came from a `close` with its code. -/
theorem closing_run (events : List (Event α)) (x : Closing) (there : x ∈ (run c events).closing) :
    ∃ signal collected, .close x.code signal collected ∈ events := by
  induction events using List.reverseRecOn generalizing x with
  | nil => exact absurd there List.not_mem_nil
  | append_singleton events event ih =>
    rw [run_append] at there
    rcases (traced_step (inv_run events) event).closing x there with ⟨y, there, is⟩ | ⟨signal, collected, is⟩
    · obtain ⟨signal, collected, there⟩ := ih y there
      rw [is] at there
      exact ⟨signal, collected, List.mem_append_left _ there⟩
    · refine ⟨signal, collected, List.mem_append_right _ ?_⟩
      rw [is]
      exact List.mem_singleton_self _

/-- A stop that was requested stays. -/
theorem stopped_run (events more : List (Event α)) {event : Event α}
    (requested : Requests c (run c events) event) :
    (run c (events ++ event :: more)).stopReason.isSome := by
  induction more using List.reverseRecOn with
  | nil =>
    rw [run_append]
    exact stopped_step requested
  | append_singleton more last ih =>
    rw [← List.cons_append, ← List.append_assoc, run_append]
    exact (traced_step (inv_run _) last).stops ih

/-! ## The start -/

/-- What the child itself reports, after its start or its failure. -/
def OfChild : Event α → Prop
  | .error _ | .data _ _ | .exit | .close _ _ _ => True
  | _ => False

structure Early (w : World α μ τ δ) : Prop where
  items : w.items = []
  ended : w.ended = false
  closing : w.closing = []
  watching : w.watching = 0
  spawned : w.spawned = false
  guardianAttempted : w.guardianAttempted = false

theorem early_stopWith (reason : Text) (h : Early w) : Early (stopWith c reason w) := by
  unfold stopWith kill
  split_ifs
  · exact ⟨h.items, h.ended, h.closing, h.watching, h.spawned, h.guardianAttempted⟩
  · unfold beginTermination
    dsimp only
    cases w.termination with
    | notBegun =>
      dsimp only
      split_ifs
      · exact ⟨h.items, h.ended, h.closing, h.watching, h.spawned, h.guardianAttempted⟩
      · exact ⟨h.items, h.ended, h.closing, h.watching, h.spawned, h.guardianAttempted⟩
    | _ => exact ⟨h.items, h.ended, h.closing, h.watching, h.spawned, h.guardianAttempted⟩

theorem early_onTerminated (result : Except Text Unit) (h : Early w) :
    Early (onTerminated c result w) := by
  unfold onTerminated
  cases w.termination with
  | pending =>
    cases result with
    | ok u => exact ⟨h.items, h.ended, h.closing, rfl, h.spawned, h.guardianAttempted⟩
    | error message =>
      dsimp only
      rw [h.watching]
      exact ⟨h.items, h.ended, h.closing, rfl, h.spawned, h.guardianAttempted⟩
  | _ => exact h

theorem early_step {event : Event α} (other : ¬OfChild event) (late : event ≠ .spawn) (h : Early w) :
    Early (step c w event) := by
  cases event with
  | spawn => exact absurd rfl late
  | error message => exact absurd trivial other
  | data stream chunk => exact absurd trivial other
  | exit => exact absurd trivial other
  | close code signal collected => exact absurd trivial other
  | terminated result => exact early_onTerminated result h
  | resume index collected =>
    unfold step onResume
    dsimp only
    rw [h.closing]
    exact h
  | stop reason =>
    unfold step
    dsimp only
    split_ifs
    · exact h
    · exact early_stopWith reason h
  | ownedStop reason closed exited running =>
    unfold step ownedStop
    dsimp only
    split_ifs
    · exact h
    · exact early_stopWith reason h
    · exact h
  | startupAbort =>
    have aborted : Early { w with startupAborted := true } :=
      ⟨h.items, h.ended, h.closing, h.watching, h.spawned, h.guardianAttempted⟩
    exact early_stopWith userCancelled aborted
  | guardianError =>
    unfold step
    dsimp only
    rw [if_neg (by rw [h.guardianAttempted]; exact Bool.false_ne_true)]
    exact h

theorem early_run (events : List (Event α)) (other : ∀ e ∈ events, ¬OfChild e ∧ e ≠ .spawn) :
    Early (run c events) := by
  induction events using List.reverseRecOn with
  | nil => exact ⟨rfl, rfl, rfl, rfl, rfl, rfl⟩
  | append_singleton events event ih =>
    obtain ⟨not_, late⟩ := other event (List.mem_append_right _ (List.mem_singleton_self _))
    rw [run_append]
    exact early_step not_ late (ih fun e there => other e (List.mem_append_left _ there))

/-- The start comes before all that the child reports, and is the first that the stream shows. -/
theorem started_run (before after : List (Event α)) (other : ∀ e ∈ before, ¬OfChild e ∧ e ≠ .spawn) :
    (run c (before ++ .spawn :: after)).items.head? = some (.lifecycle .started none) := by
  have early := early_run (c := c) before other
  have shown : (run c (before ++ [.spawn])).items = [.lifecycle .started none] := by
    rw [run_append]
    change (onSpawn c (run c before)).items = _
    have pushed : (push (.lifecycle .started none) { run c before with spawned := true }).items =
        [.lifecycle .started none] := by
      unfold push
      rw [if_neg (by rw [early.ended]; exact Bool.false_ne_true), early.items]
      rfl
    unfold onSpawn
    rw [if_neg (by rw [early.spawned]; exact Bool.false_ne_true)]
    dsimp only
    split_ifs
    · exact pushed
    · exact pushed
  obtain ⟨more, is⟩ := items_append (c := c) (before ++ [.spawn]) after
  rw [List.append_assoc, List.singleton_append, shown] at is
  rw [← is]
  rfl

/-! ## The stream -/

theorem last_of_front {front before after : List (RunEvent α μ)} {last e : RunEvent α μ}
    (is : front ++ [last] = before ++ e :: after) (plain : ∀ e ∈ front, isTerminal e = false)
    (terminal : isTerminal e = true) : after = [] ∧ e = last := by
  induction front generalizing before with
  | nil =>
    cases before with
    | nil =>
      obtain ⟨rfl, none_⟩ := List.cons.inj is
      exact ⟨none_.symm, rfl⟩
    | cons x before =>
      obtain ⟨-, none_⟩ := List.cons.inj is
      exact absurd none_.symm (List.append_ne_nil_of_right_ne_nil _ (List.cons_ne_nil _ _))
  | cons x front ih =>
    cases before with
    | nil =>
      obtain ⟨rfl, -⟩ := List.cons.inj is
      rw [plain x List.mem_cons_self] at terminal
      exact absurd terminal Bool.false_ne_true
    | cons y before =>
      obtain ⟨-, is⟩ := List.cons.inj is
      exact ih is fun e there => plain e (List.mem_cons_of_mem _ there)

theorem terminal_last {last : LifecyclePhase} (late : last ≠ .started) (reason : Option Text) :
    isTerminal (.lifecycle last reason : RunEvent α μ) = true := by
  cases last with
  | started => exact absurd rfl late
  | _ => rfl

/-- What shows an end is of a run that has ended, and is the last. -/
theorem terminal_run {events : List (Event α)} {before after : List (RunEvent α μ)}
    {e : RunEvent α μ} (is : (run c events).items = before ++ e :: after)
    (terminal : isTerminal e = true) : (run c events).ended = true ∧ after = [] := by
  cases ended : (run c events).ended with
  | false =>
    have plain := (going_run events ended).1 e (by rw [is]; exact List.mem_append_right _ List.mem_cons_self)
    rw [plain] at terminal
    exact absurd terminal Bool.false_ne_true
  | true =>
    obtain ⟨earlier, event, last, was⟩ := ended_run events ended
    obtain ⟨front, reason, items, plain⟩ := was.items
    exact ⟨rfl, (last_of_front (items.symm.trans is) plain terminal).1⟩

theorem one_end {events : List (Event α)} (ended : (run c events).ended = true) :
    ((run c events).items.filter isTerminal).length = 1 := by
  obtain ⟨earlier, event, last, was⟩ := ended_run events ended
  obtain ⟨front, reason, items, plain⟩ := was.items
  rw [items, List.filter_append, List.filter_eq_nil_iff.mpr, List.filter_cons_of_pos]
  · rfl
  · exact terminal_last was.late reason
  · intro e there
    rw [plain e there]
    exact Bool.false_ne_true

theorem code_of_completes {before : List (Event α)} {event : Event α}
    (completes : Completes c (run c before) event) :
    ∃ signal collected, .close (some 0) signal collected ∈ before ++ [event] := by
  cases completes with
  | closed ready => exact ⟨_, _, List.mem_append_right _ (List.mem_singleton_self _)⟩
  | resumed there ready =>
    obtain ⟨signal, collected, there⟩ := closing_run before _ (List.mem_of_getElem? there)
    exact ⟨signal, collected, List.mem_append_left _ there⟩

theorem unstopped_of_completes {event : Event α} (completes : Completes c w event) :
    w.stopReason = none := by
  cases completes with
  | closed ready => exact ready.1
  | resumed there ready => exact ready.1

theorem completed_run {events : List (Event α)} {reason : Option Text}
    (there : .lifecycle .completed reason ∈ (run c events).items) :
    ∃ before event after, events = before ++ event :: after ∧ Completes c (run c before) event := by
  obtain ⟨before, after, is⟩ := List.append_of_mem there
  have ended := (terminal_run is rfl).1
  obtain ⟨earlier, event, last, was⟩ := ended_run events ended
  obtain ⟨front, reason', items, plain⟩ := was.items
  obtain ⟨-, same⟩ := last_of_front (items.symm.trans is) plain rfl
  obtain ⟨rest, ran⟩ := was.ran
  cases same
  exact ⟨earlier, event, rest, ran, was.completes rfl⟩

/-- The stream of a run, for every order of its callbacks: nothing follows the event that ends it, and a
run that has ended has one; the complete lines fed before it come before it; it completes only as a child
closed with code 0, with no stop requested, no failure reported and the artifacts collected; and where
the child spawned, the start is the first event. -/
theorem run_stream (c : Process α μ τ δ) (events : List (Event α)) :
    (∀ before e after, (run c events).items = before ++ e :: after → isTerminal e = true → after = []) ∧
    ((run c events).ended = true → ((run c events).items.filter isTerminal).length = 1) ∧
    (∀ before after, events = before ++ after → (run c before).ended = false →
      (run c before).items <+: (run c events).items ∧
      (∀ e ∈ (run c before).items, isTerminal e = false) ∧
      ∀ stream, outputs stream (run c before).items =
        (completeLines (emitter stream (run c before)).fed).map (shown c)) ∧
    (∀ reason, .lifecycle .completed reason ∈ (run c events).items →
      ∃ before event after, events = before ++ event :: after ∧ Completes c (run c before) event ∧
        (∃ signal collected, .close (some 0) signal collected ∈ before ++ [event]) ∧
        ∀ earlier stop later, before = earlier ++ stop :: later → ¬Requests c (run c earlier) stop) ∧
    (∀ before after, events = before ++ .spawn :: after → (∀ e ∈ before, ¬OfChild e ∧ e ≠ .spawn) →
      (run c events).items.head? = some (.lifecycle .started none)) := by
  refine ⟨?_, one_end, ?_, ?_, ?_⟩
  · intro before e after is terminal
    exact (terminal_run is terminal).2
  · intro before after is fresh
    obtain ⟨plain, lines⟩ := going_run before fresh
    rw [is]
    exact ⟨items_append before after, plain, fun stream => (lines stream).1⟩
  · intro reason there
    obtain ⟨before, event, after, is, completes⟩ := completed_run there
    refine ⟨before, event, after, is, completes, code_of_completes completes, ?_⟩
    intro earlier stop later ran requested
    have stopped := stopped_run earlier later requested
    rw [← ran, unstopped_of_completes completes] at stopped
    exact absurd stopped Bool.false_ne_true
  · intro before after is other
    rw [is]
    exact started_run before after other

/-! ## Examples -/

/-- A run of a child that prints ASCII. -/
def plainProcess (pid : Option ℕ) (owned : Bool) : Process Unit Unit Unit Unit where
  pid
  windows := false
  owned
  discussion := false
  structured := { start := (), consume := fun _ _ => (), finish := fun _ _ => [], failureReason := fun _ => none }
  decoder :=
    { start := ()
      write := fun _ chunk => ((), chunk.map fun byte => Char.ofNat byte.toNat)
      finish := fun _ => ((), []) }
  redact := id
  redactLine := id
  redactMeasured := id

/-- It prints a line and exits. -/
def listing : List (Event Unit) :=
  [.spawn, .data .stdout [111, 107, 10], .exit, .close (some 0) none (.ok []), .terminated (.ok ()),
    .resume 0 (.ok [()])]

theorem run_stream_listing :
    (∃ before event after, listing = before ++ event :: after ∧
      Completes (plainProcess (some 7) false) (run (plainProcess (some 7) false) before) event) ∧
    (run (plainProcess (some 7) false) listing).items.head? = some (.lifecycle .started none) ∧
    ((run (plainProcess (some 7) false) listing).items.filter isTerminal).length = 1 := by
  have stream := run_stream (plainProcess (some 7) false) listing
  refine ⟨?_, stream.2.2.2.2 [] _ rfl nofun, stream.2.1 rfl⟩
  obtain ⟨before, event, after, is, completes, -⟩ := stream.2.2.2.1 none (by decide)
  exact ⟨before, event, after, is, completes⟩

/-- An owned run whose child has exited is asked to stop, and completes; and the stream of a child that
fails to spawn has an end and no start. -/
theorem run_stream_stopped :
    (run (plainProcess (some 7) true) [.spawn, .exit, .ownedStop userCancelled false true false,
        .close (some 0) none (.ok []), .terminated (.ok ()), .resume 0 (.ok [])]).items =
      [.lifecycle .started none, .lifecycle .completed none] ∧
    (run (plainProcess none true) [.error "spawn ENOENT".toList,
        .close (some (-2)) none (.ok [])]).items =
      [.lifecycle .failed (some "exit -2".toList)] := by
  constructor
  · decide
  · decide

end Artoo.Node.ProcessRun
