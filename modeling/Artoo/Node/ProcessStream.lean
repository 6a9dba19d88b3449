import Artoo.Node.ProcessRun

/-! The stream of a run: its lines, its one end, and what a completion means. -/
namespace Artoo.Node.ProcessRun

variable {α μ τ δ : Type} {c : Process α μ τ δ} {w w' w'' : World α μ τ δ}

/-! ## Lines -/

theorem splitOn_append {β : Type} [BEq β] [LawfulBEq β] (s : β) (a b : List β) :
    (a ++ b).splitOn s = (a.splitOn s).dropLast ++ ((a.splitOn s).getLastD [] ++ b).splitOn s := by
  induction a with
  | nil => rfl
  | cons x a ih =>
    rw [List.cons_append, List.splitOn_cons_eq_if_modifyHead, List.splitOn_cons_eq_if_modifyHead]
    have some_ : a.splitOn s ≠ [] := List.splitOn_ne_nil s a
    by_cases is : x == s
    · rw [if_pos is, if_pos is, ih]
      generalize a.splitOn s = parts at some_
      cases parts with
      | nil => exact absurd rfl some_
      | cons part parts => rfl
    · rw [if_neg is, if_neg is, ih]
      generalize a.splitOn s = parts at some_
      cases parts with
      | nil => exact absurd rfl some_
      | cons part parts =>
        cases parts with
        | nil =>
          change ((part ++ b).splitOn s).modifyHead (x :: ·) = (x :: part ++ b).splitOn s
          rw [List.cons_append, List.splitOn_cons_eq_if_modifyHead, if_neg is]
        | cons next parts => rfl

theorem getLastD_append {β : Type} {a b : List β} {d : β} (some_ : b ≠ []) :
    (a ++ b).getLastD d = b.getLastD d := by
  rw [List.getLastD_eq_getLast?, List.getLastD_eq_getLast?, List.getLast?_append_of_ne_nil a some_]

def isTerminal : RunEvent α μ → Bool
  | .lifecycle phase _ => phase != .started
  | _ => false

/-- The texts of a stream. -/
def outputs (stream : Stream) (items : List (RunEvent α μ)) : List Text :=
  items.filterMap fun event => match event with
    | .output s text => if s = stream then some text else none
    | _ => none

def completeLines (text : Text) : List Text := (text.splitOn '\n').dropLast

def shown (c : Process α μ τ δ) (line : Text) : Text := c.redactLine (dropReturn line)

/-! ## What feeding does -/

/-- Events that end nothing are added, if any; nothing else of the run changes. -/
structure Grows (w w' : World α μ τ δ) : Prop where
  ended : w'.ended = w.ended
  finalized : w'.finalized = w.finalized
  stopReason : w'.stopReason = w.stopReason
  closing : w'.closing = w.closing
  childExitObserved : w'.childExitObserved = w.childExitObserved
  childStdioClosed : w'.childStdioClosed = w.childStdioClosed
  spawned : w'.spawned = w.spawned
  items : ∃ more, w'.items = w.items ++ more ∧ (∀ e ∈ more, isTerminal e = false) ∧
    (w.ended = true → more = [])

theorem Grows.refl (w : World α μ τ δ) : Grows w w :=
  ⟨rfl, rfl, rfl, rfl, rfl, rfl, rfl, [], (List.append_nil _).symm, nofun, fun _ => rfl⟩

theorem Grows.trans (first : Grows w w') (last : Grows w' w'') : Grows w w'' := by
  obtain ⟨more, is, plain, none_⟩ := first.items
  obtain ⟨more', is', plain', none'⟩ := last.items
  refine ⟨last.ended.trans first.ended, last.finalized.trans first.finalized,
    last.stopReason.trans first.stopReason, last.closing.trans first.closing,
    last.childExitObserved.trans first.childExitObserved,
    last.childStdioClosed.trans first.childStdioClosed, last.spawned.trans first.spawned,
    more ++ more', ?_, ?_, ?_⟩
  · rw [is', is, List.append_assoc]
  · intro e there
    exact (List.mem_append.mp there).elim (plain e) (plain' e)
  · intro ended
    rw [none_ ended, none' (first.ended.trans ended)]
    rfl

theorem grows_push {e : RunEvent α μ} (plain : isTerminal e = false) (w : World α μ τ δ) :
    Grows w (push e w) := by
  unfold push
  split_ifs with ended
  · exact Grows.refl w
  · refine ⟨rfl, rfl, rfl, rfl, rfl, rfl, rfl, [e], rfl, ?_, fun is => absurd is ended⟩
    intro x there
    rw [List.mem_singleton.mp there]
    exact plain

theorem grows_foldl {β : Type} {f : World α μ τ δ → β → World α μ τ δ}
    (round : ∀ w b, Grows w (f w b)) (l : List β) (w : World α μ τ δ) : Grows w (l.foldl f w) := by
  induction l generalizing w with
  | nil => exact Grows.refl w
  | cons b l ih => exact (round w b).trans (ih _)

theorem grows_onLine (stream : Stream) (raw : Text) (w : World α μ τ δ) :
    Grows w (onLine c stream raw w) := by
  cases stream with
  | stdout =>
    have pushed := grows_push (e := .output .stdout (c.redactLine raw)) rfl w
    exact ⟨pushed.ended, pushed.finalized, pushed.stopReason, pushed.closing,
      pushed.childExitObserved, pushed.childStdioClosed, pushed.spawned, pushed.items⟩
  | stderr => exact grows_push rfl w

theorem grows_setEmitter (stream : Stream) (e : LineEmitter δ) (w : World α μ τ δ) :
    Grows w (setEmitter stream e w) := by
  cases stream with
  | stdout => exact ⟨rfl, rfl, rfl, rfl, rfl, rfl, rfl, [], (List.append_nil _).symm, nofun, fun _ => rfl⟩
  | stderr => exact ⟨rfl, rfl, rfl, rfl, rfl, rfl, rfl, [], (List.append_nil _).symm, nofun, fun _ => rfl⟩

theorem grows_onLines (stream : Stream) (lines : List Text) (w : World α μ τ δ) :
    Grows w (onLines c stream lines w) :=
  grows_foldl (fun w line => grows_onLine stream (dropReturn line) w) lines w

theorem grows_feedText (stream : Stream) (text : Text) (w : World α μ τ δ) :
    Grows w (feedText c stream text w) :=
  (grows_setEmitter stream _ w).trans (grows_onLines stream _ _)

theorem grows_feed (stream : Stream) (chunk : List UInt8) (w : World α μ τ δ) :
    Grows w (feed c stream chunk w) :=
  (grows_setEmitter stream _ w).trans (grows_feedText stream _ _)

theorem grows_flush (stream : Stream) (w : World α μ τ δ) : Grows w (flush c stream w) := by
  unfold flush
  dsimp only
  split_ifs
  · exact grows_setEmitter stream _ w
  · exact (grows_setEmitter stream _ w).trans (grows_onLine stream _ _)

theorem grows_flushBoth (w : World α μ τ δ) : Grows w (flushBoth c w) :=
  (grows_flush .stdout w).trans (grows_flush .stderr _)

theorem grows_emit {e : RunEvent α μ} (plain : isTerminal e = false) (w : World α μ τ δ) :
    Grows w (emit c e w) := by
  unfold emit
  apply grows_push
  cases e with
  | measured value => rfl
  | lifecycle phase reason => exact plain
  | output stream text => rfl
  | artifact descriptor => rfl

theorem grows_emitMeasured (success : Bool) (w : World α μ τ δ) :
    Grows w (emitMeasured c success w) :=
  grows_foldl (fun w _ => grows_emit rfl w) _ w

theorem grows_pushArtifacts (descriptors : List α) (w : World α μ τ δ) :
    Grows w (pushArtifacts descriptors w) :=
  grows_foldl (fun w _ => grows_push rfl w) descriptors w

/-! ## Ends -/

/-- The stream ends, with one event that says how. -/
structure Ends (w w' : World α μ τ δ) (last : LifecyclePhase) : Prop where
  before : w.ended = false
  ended : w'.ended = true
  finalized : w'.finalized = true
  stopReason : w'.stopReason = w.stopReason
  closing : w'.closing = w.closing
  items : ∃ more reason, w'.items = w.items ++ more ++ [.lifecycle last reason] ∧
    ∀ e ∈ more, isTerminal e = false

theorem Grows.ends {last : LifecyclePhase} (first : Grows w w') (rest : Ends w' w'' last) :
    Ends w w'' last := by
  obtain ⟨more, is, plain, -⟩ := first.items
  obtain ⟨more', reason, is', plain'⟩ := rest.items
  refine ⟨first.ended.symm.trans rest.before, rest.ended, rest.finalized,
    rest.stopReason.trans first.stopReason, rest.closing.trans first.closing, more ++ more', reason,
    ?_, ?_⟩
  · rw [is', is]
    simp only [List.append_assoc]
  · intro e there
    exact (List.mem_append.mp there).elim (plain e) (plain' e)

/-- The last event and the end of the queue. -/
theorem ends_push (phase : LifecyclePhase) (reason : Option Text) (more : Grows w w')
    (fresh : w.ended = false) (final : w'.finalized = true) :
    Ends w (endQueue (push (.lifecycle phase reason) w')) phase := by
  obtain ⟨added, is, plain, -⟩ := more.items
  have open_ : w'.ended = false := more.ended.trans fresh
  unfold endQueue resolveClosed push
  rw [if_neg (by rw [open_]; exact Bool.false_ne_true)]
  exact ⟨fresh, rfl, final, more.stopReason, more.closing, added, reason, by rw [is], plain⟩

theorem ends_finishWith (phase : LifecyclePhase) (reason : Text) (fresh : w.ended = false)
    (final : w.finalized = false) : Ends w (finishWith c phase reason w) phase := by
  unfold finishWith
  rw [if_neg (by rw [final]; exact Bool.false_ne_true)]
  have flushed : Grows (finalize w) (flushBoth c (finalize w)) := grows_flushBoth _
  have measured := flushed.trans (grows_emitMeasured (c := c) false _)
  have ends := ends_push phase (some (c.redact reason)) measured fresh measured.finalized
  exact ⟨fresh, ends.ended, ends.finalized, ends.stopReason, ends.closing, ends.items⟩

theorem ends_complete (descriptors : List α) (fresh : w.ended = false) :
    Ends w (complete c descriptors w) .completed := by
  have flushed : Grows w (flushBoth c w) := grows_flushBoth w
  have open_ : (finalize (flushBoth c w)).ended = false := flushed.ended.trans fresh
  have pushed := grows_pushArtifacts descriptors (finalize (flushBoth c w))
  have measured := pushed.trans (grows_emitMeasured (c := c) true _)
  have ends := ends_push .completed none measured open_ measured.finalized
  exact flushed.ends ⟨open_, ends.ended, ends.finalized, ends.stopReason, ends.closing, ends.items⟩

/-- Once the stream has ended it stays as it is. -/
theorem grows_complete (descriptors : List α) (ended : w.ended = true) (final : w.finalized = true) :
    Grows w (complete c descriptors w) := by
  have flushed : Grows w (flushBoth c w) := grows_flushBoth w
  have finalized : Grows (flushBoth c w) (finalize (flushBoth c w)) :=
    ⟨rfl, (flushed.finalized.trans final).symm, rfl, rfl, rfl, rfl, rfl, [], (List.append_nil _).symm,
      nofun, fun _ => rfl⟩
  have measured := ((flushed.trans finalized).trans (grows_pushArtifacts descriptors _)).trans
    (grows_emitMeasured (c := c) true _)
  have over_ := measured.ended.trans ended
  unfold complete endQueue resolveClosed push
  dsimp only
  rw [if_pos over_]
  obtain ⟨more, items, plain, none_⟩ := measured.items
  exact ⟨ended.symm, measured.finalized, measured.stopReason, measured.closing,
    measured.childExitObserved, measured.childStdioClosed, measured.spawned, more, items, plain, none_⟩

/-! ## The group is gone -/

/-- A run that has not ended ends, and completes only with all that it takes. -/
theorem ends_afterGroup {code : Option ℤ} {signal : Option Text} {collected : Except Text (List α)}
    (fresh : w.ended = false) (final : w.finalized = false) (going : w.stopReason = none) :
    ∃ last, Ends w (afterGroup c code signal collected w) last ∧ last ≠ .started ∧
      (last = .completed → code = some 0 ∧
        c.structured.failureReason (flushBoth c w).structured = none ∧
        ∃ descriptors, (if c.discussion then .ok [] else collected) = .ok descriptors) := by
  have flushed : Grows w (flushBoth c w) := grows_flushBoth w
  have open_ := flushed.ended.trans fresh
  have finishing {phase : LifecyclePhase} {reason : Text} :
      Ends w (finishWith c phase reason (flushBoth c w)) phase :=
    flushed.ends (ends_finishWith phase reason open_ (flushed.finalized.trans final))
  unfold afterGroup
  rw [going]
  dsimp only [Option.isSome_none]
  rw [if_neg Bool.false_ne_true]
  by_cases zero : code = some 0
  · rw [if_pos zero]
    cases failed : c.structured.failureReason (flushBoth c w).structured with
    | some reason => exact ⟨.failed, finishing, nofun, nofun⟩
    | none =>
      dsimp only
      cases found : (if c.discussion then .ok [] else collected) with
      | error message => exact ⟨.failed, finishing, nofun, nofun⟩
      | ok descriptors =>
        exact ⟨.completed, flushed.ends (ends_complete descriptors open_), nofun,
          fun _ => ⟨zero, rfl, descriptors, rfl⟩⟩
  · rw [if_neg zero]
    exact ⟨.failed, finishing, nofun, nofun⟩

/-- A run that has ended is left as it is. -/
theorem grows_afterGroup {code : Option ℤ} {signal : Option Text} {collected : Except Text (List α)}
    (ended : w.ended = true) (final : w.finalized = true) (going : w.stopReason = none) :
    Grows w (afterGroup c code signal collected w) := by
  have flushed : Grows w (flushBoth c w) := grows_flushBoth w
  have finishing {phase : LifecyclePhase} {reason : Text} :
      Grows w (finishWith c phase reason (flushBoth c w)) := by
    unfold finishWith
    rw [if_pos (flushed.finalized.trans final)]
    exact flushed
  unfold afterGroup
  rw [going]
  dsimp only [Option.isSome_none]
  rw [if_neg Bool.false_ne_true]
  by_cases zero : code = some 0
  · rw [if_pos zero]
    cases c.structured.failureReason (flushBoth c w).structured with
    | some reason => exact finishing
    | none =>
      dsimp only
      cases (if c.discussion then .ok [] else collected) with
      | error message => exact finishing
      | ok descriptors =>
        exact flushed.trans (grows_complete descriptors (flushed.ended.trans ended)
          (flushed.finalized.trans final))
  · rw [if_neg zero]
    exact finishing

/-! ## The lines of a stream -/

/-- The stream shows each complete line that was fed, and the emitter keeps the rest. -/
def Lines (c : Process α μ τ δ) (w : World α μ τ δ) : Prop :=
  ∀ stream, outputs stream w.items = (completeLines (emitter stream w).fed).map (shown c) ∧
    (emitter stream w).buffer = ((emitter stream w).fed.splitOn '\n').getLastD []

theorem onLine_items (stream : Stream) (raw : Text) (fresh : w.ended = false) :
    (onLine c stream raw w).items = w.items ++ [.output stream (c.redactLine raw)] ∧
      ∀ s, emitter s (onLine c stream raw w) = emitter s w := by
  have open_ : ¬w.ended = true := by
    rw [fresh]
    exact Bool.false_ne_true
  cases stream with
  | stdout =>
    unfold onLine push
    rw [if_neg open_]
    exact ⟨rfl, fun s => by cases s <;> rfl⟩
  | stderr =>
    unfold onLine push
    dsimp only
    rw [if_neg open_]
    exact ⟨rfl, fun s => by cases s <;> rfl⟩

theorem onLines_items (stream : Stream) (lines : List Text) (fresh : w.ended = false) :
    (onLines c stream lines w).items =
        w.items ++ lines.map (fun line => .output stream (shown c line)) ∧
      ∀ s, emitter s (onLines c stream lines w) = emitter s w := by
  unfold onLines
  induction lines generalizing w with
  | nil => exact ⟨(List.append_nil _).symm, fun _ => rfl⟩
  | cons line lines ih =>
    obtain ⟨items, same⟩ := onLine_items (c := c) stream (dropReturn line) fresh
    have next : (onLine c stream (dropReturn line) w).ended = false :=
      (grows_onLine stream _ w).ended.trans fresh
    obtain ⟨items', same'⟩ := ih next
    refine ⟨?_, fun s => (same' s).trans (same s)⟩
    rw [List.foldl_cons, items', items, List.append_assoc]
    rfl

theorem outputs_append (stream : Stream) (a b : List (RunEvent α μ)) :
    outputs stream (a ++ b) = outputs stream a ++ outputs stream b := List.filterMap_append

theorem outputs_lines (stream s : Stream) (lines : List Text) :
    outputs (α := α) (μ := μ) s (lines.map fun line => .output stream (shown c line)) =
      if stream = s then lines.map (shown c) else [] := by
  unfold outputs
  rw [List.filterMap_map]
  split_ifs with is
  · rw [← List.filterMap_eq_map]
    congr 1
    funext line
    simp [is]
  · simp [is]

theorem emitter_setEmitter (stream s : Stream) (e : LineEmitter δ) (w : World α μ τ δ) :
    emitter s (setEmitter stream e w) = if stream = s then e else emitter s w := by
  cases stream <;> cases s <;> rfl

theorem lines_feedText (stream : Stream) (text : Text) (fresh : w.ended = false) (h : Lines c w) :
    Lines c (feedText c stream text w) := by
  intro s
  unfold feedText
  dsimp only
  obtain ⟨items, same⟩ := onLines_items (c := c) stream
    (((emitter stream w).buffer ++ text).splitOn '\n').dropLast
    (w := setEmitter stream { emitter stream w with
      buffer := (((emitter stream w).buffer ++ text).splitOn '\n').getLastD []
      fed := (emitter stream w).fed ++ text } w)
    ((grows_setEmitter stream _ w).ended.trans fresh)
  rw [items, same, emitter_setEmitter, outputs_append, outputs_lines]
  have kept : (setEmitter stream { emitter stream w with
      buffer := (((emitter stream w).buffer ++ text).splitOn '\n').getLastD []
      fed := (emitter stream w).fed ++ text } w).items = w.items := by cases stream <;> rfl
  rw [kept, (h s).1]
  split_ifs with is
  · cases is
    dsimp only
    rw [(h stream).2]
    unfold completeLines
    rw [splitOn_append '\n' (emitter stream w).fed text]
    have some_ := List.splitOn_ne_nil '\n' (((emitter stream w).fed.splitOn '\n').getLastD [] ++ text)
    rw [List.dropLast_append_of_ne_nil some_, List.map_append]
    exact ⟨rfl, (getLastD_append some_).symm⟩
  · rw [List.append_nil]
    exact ⟨rfl, (h s).2⟩

/-! ## One step -/

/-- The stream goes on: no event ends it, and its lines are kept. -/
structure Flows (c : Process α μ τ δ) (w w' : World α μ τ δ) : Prop where
  ended : w'.ended = w.ended
  finalized : w'.finalized = w.finalized
  items : ∃ more, w'.items = w.items ++ more ∧ (∀ e ∈ more, isTerminal e = false) ∧
    (w.ended = true → more = [])
  lines : w.ended = false → Lines c w → Lines c w'

theorem Flows.trans (first : Flows c w w') (last : Flows c w' w'') : Flows c w w'' := by
  obtain ⟨more, is, plain, none_⟩ := first.items
  obtain ⟨more', is', plain', none'⟩ := last.items
  refine ⟨last.ended.trans first.ended, last.finalized.trans first.finalized, ⟨more ++ more', ?_, ?_, ?_⟩,
    fun fresh h => last.lines (first.ended.trans fresh) (first.lines fresh h)⟩
  · rw [is', is, List.append_assoc]
  · intro e there
    exact (List.mem_append.mp there).elim (plain e) (plain' e)
  · intro ended
    rw [none_ ended, none' (first.ended.trans ended)]
    rfl

theorem flows_same (items : w'.items = w.items) (ended : w'.ended = w.ended)
    (finalized : w'.finalized = w.finalized)
    (emitters : ∀ s, (emitter s w').fed = (emitter s w).fed ∧ (emitter s w').buffer = (emitter s w).buffer) :
    Flows c w w' := by
  refine ⟨ended, finalized, ⟨[], by rw [items, List.append_nil], nofun, fun _ => rfl⟩, fun _ h s => ?_⟩
  rw [items, (emitters s).1, (emitters s).2]
  exact h s

/-- Nothing that the stream is made of changes. -/
theorem flows_still (items : w'.items = w.items) (ended : w'.ended = w.ended)
    (finalized : w'.finalized = w.finalized) (stdout : w'.stdout = w.stdout)
    (stderr : w'.stderr = w.stderr) : Flows c w w' := by
  apply flows_same items ended finalized
  intro s
  cases s with
  | stdout => exact ⟨congrArg LineEmitter.fed stdout, congrArg LineEmitter.buffer stdout⟩
  | stderr => exact ⟨congrArg LineEmitter.fed stderr, congrArg LineEmitter.buffer stderr⟩

theorem Flows.refl (w : World α μ τ δ) : Flows c w w := flows_still rfl rfl rfl rfl rfl

theorem flows_feedText (stream : Stream) (text : Text) (w : World α μ τ δ) :
    Flows c w (feedText c stream text w) :=
  have grows := grows_feedText (c := c) stream text w
  ⟨grows.ended, grows.finalized, grows.items, lines_feedText stream text⟩

theorem flows_feed (stream : Stream) (chunk : List UInt8) (w : World α μ τ δ) :
    Flows c w (feed c stream chunk w) := by
  unfold feed
  dsimp only
  apply Flows.trans _ (flows_feedText stream _ _)
  apply flows_same
  · cases stream <;> rfl
  · cases stream <;> rfl
  · cases stream <;> rfl
  · intro s
    rw [emitter_setEmitter]
    split_ifs with is
    · rw [is]
      exact ⟨rfl, rfl⟩
    · exact ⟨rfl, rfl⟩

theorem flows_beginTermination (w : World α μ τ δ) : Flows c w (beginTermination c w) := by
  unfold beginTermination
  cases w.termination with
  | notBegun =>
    dsimp only
    split_ifs
    · exact flows_still rfl rfl rfl rfl rfl
    · exact flows_still rfl rfl rfl rfl rfl
  | _ => exact Flows.refl _

theorem flows_stopWith (reason : Text) (w : World α μ τ δ) : Flows c w (stopWith c reason w) := by
  have noted : Flows c w { w with stopReason := some reason } :=
    flows_still rfl rfl rfl rfl rfl
  unfold stopWith kill
  split_ifs
  · exact noted
  · exact noted.trans (flows_beginTermination _)

theorem flows_push {e : RunEvent α μ} (plain : isTerminal e = false)
    (silent : ∀ stream, outputs stream [e] = []) (w : World α μ τ δ) : Flows c w (push e w) := by
  have grows := grows_push plain w
  refine ⟨grows.ended, grows.finalized, grows.items, fun fresh h s => ?_⟩
  unfold push
  rw [if_neg (by rw [fresh]; exact Bool.false_ne_true)]
  have same : ∀ s, emitter s { w with items := w.items ++ [e] } = emitter s w := by
    intro s
    cases s <;> rfl
  rw [same, outputs_append, silent, List.append_nil]
  exact h s

theorem flows_onSpawn (w : World α μ τ δ) : Flows c w (onSpawn c w) := by
  have spawned : Flows c w { w with spawned := true } :=
    flows_still rfl rfl rfl rfl rfl
  have pushed := spawned.trans (flows_push (e := .lifecycle .started none) rfl (fun _ => rfl) _)
  unfold onSpawn
  dsimp only
  split_ifs
  · exact Flows.refl _
  · exact pushed
  · exact pushed.trans (flows_still rfl rfl rfl rfl rfl)

theorem flows_onError (message : Text) (w : World α μ τ δ) : Flows c w (onError c message w) := by
  unfold onError
  split_ifs
  · exact flows_still rfl rfl rfl rfl rfl
  · exact flows_feedText .stderr _ w

theorem flows_onExit (w : World α μ τ δ) : Flows c w (onExit c w) := by
  have seen : Flows c w { w with childExitObserved := true } :=
    flows_still rfl rfl rfl rfl rfl
  have begun := seen.trans (flows_beginTermination (c := c) _)
  unfold onExit
  dsimp only
  split_ifs
  · exact seen
  · cases (beginTermination c { w with childExitObserved := true }).termination with
    | settled result =>
      cases result with
      | ok u => exact begun
      | error message => exact begun.trans (flows_feedText .stderr _ _)
    | _ => exact begun.trans (flows_still rfl rfl rfl rfl rfl)

theorem flows_foldl {β : Type} {f : World α μ τ δ → β → World α μ τ δ}
    (round : ∀ w b, Flows c w (f w b)) (l : List β) (w : World α μ τ δ) : Flows c w (l.foldl f w) := by
  induction l generalizing w with
  | nil => exact Flows.refl _
  | cons b l ih => exact (round w b).trans (ih _)

theorem flows_onTerminated (result : Except Text Unit) (w : World α μ τ δ) :
    Flows c w (onTerminated c result w) := by
  unfold onTerminated
  cases w.termination with
  | pending =>
    cases result with
    | ok u => exact flows_still rfl rfl rfl rfl rfl
    | error message =>
      dsimp only
      have settled : Flows c w { w with termination := .settled (.error message), watching := 0 } :=
        flows_still rfl rfl rfl rfl rfl
      exact settled.trans (flows_foldl (fun w text => flows_feedText .stderr text w) _ _)
  | _ => exact Flows.refl _

/-- When a run completes: `w` is what the handler of `close` goes on with. -/
def Ready (c : Process α μ τ δ) (collected : Except Text (List α)) (w : World α μ τ δ) : Prop :=
  w.stopReason = none ∧ c.structured.failureReason (flushBoth c w).structured = none ∧
    ∃ descriptors, (if c.discussion then .ok [] else collected) = .ok descriptors

inductive Completes (c : Process α μ τ δ) (w : World α μ τ δ) : Event α → Prop where
  | closed {signal : Option Text} {collected : Except Text (List α)}
      (ready : Ready c collected (stdioClosed w)) :
      Completes c w (.close (some 0) signal collected)
  | resumed {index : ℕ} {signal : Option Text} {collected : Except Text (List α)}
      (there : w.closing[index]? = some ⟨false, some 0, signal⟩)
      (ready : Ready c collected (goOn index w)) :
      Completes c w (.resume index collected)

theorem flows_await (closing : Closing) (w : World α μ τ δ) : Flows c w (await closing w) :=
  flows_still rfl rfl rfl rfl rfl

theorem flows_goOn (index : ℕ) (w : World α μ τ δ) : Flows c w (goOn index w) :=
  flows_still rfl rfl rfl rfl rfl

theorem flows_stdioClosed (w : World α μ τ δ) : Flows c w (stdioClosed w) :=
  flows_still rfl rfl rfl rfl rfl

/-- The queue is ended with the run. -/
def Inv (w : World α μ τ δ) : Prop := w.finalized = w.ended

/-- What a step does to the stream. `completes` is when it may complete the run. -/
structure Stepped (c : Process α μ τ δ) (w w' : World α μ τ δ) (completes : Prop) : Prop where
  inv : Inv w'
  keeps : w.ended = true → w'.ended = true ∧ w'.items = w.items
  goes : w.ended = false → w'.ended = false →
    (∃ more, w'.items = w.items ++ more ∧ ∀ e ∈ more, isTerminal e = false) ∧ (Lines c w → Lines c w')
  ends : w.ended = false → w'.ended = true → ∃ more last reason,
    w'.items = w.items ++ more ++ [.lifecycle last reason] ∧ (∀ e ∈ more, isTerminal e = false) ∧
      last ≠ .started ∧ (last = .completed → completes)

theorem Flows.stepped (h : Flows c w w') (inv : Inv w) (completes : Prop) :
    Stepped c w w' completes := by
  obtain ⟨more, items, plain, none_⟩ := h.items
  refine ⟨h.finalized.trans (inv.trans h.ended.symm), fun ended => ⟨h.ended.trans ended, ?_⟩,
    fun fresh _ => ⟨⟨more, items, plain⟩, h.lines fresh⟩, fun fresh ended => ?_⟩
  · rw [items, none_ ended, List.append_nil]
  · rw [h.ended, fresh] at ended
    exact absurd ended Bool.false_ne_true

theorem Ends.stepped {last : LifecyclePhase} (h : Ends w w' last) {completes : Prop}
    (late : last ≠ .started) (done : last = .completed → completes) : Stepped c w w' completes := by
  obtain ⟨more, reason, items, plain⟩ := h.items
  refine ⟨h.finalized.trans h.ended.symm, fun ended => ?_, fun _ open_ => ?_,
    fun _ _ => ⟨more, last, reason, items, plain, late, done⟩⟩
  · rw [h.before] at ended
    exact absurd ended Bool.false_ne_true
  · rw [h.ended] at open_
    exact absurd open_.symm Bool.false_ne_true

theorem Grows.stepped (h : Grows w w') (inv : Inv w) (ended : w.ended = true) (completes : Prop) :
    Stepped c w w' completes := by
  obtain ⟨more, items, plain, none_⟩ := h.items
  refine ⟨h.finalized.trans (inv.trans h.ended.symm), fun _ => ⟨h.ended.trans ended, ?_⟩,
    fun fresh => ?_, fun fresh => ?_⟩
  · rw [items, none_ ended, List.append_nil]
  · rw [ended] at fresh
    exact absurd fresh.symm Bool.false_ne_true
  · rw [ended] at fresh
    exact absurd fresh.symm Bool.false_ne_true

/-- `w` and `w'` differ in what the stream does not show. -/
theorem Flows.before (h : Flows c w w') (same : w'.items = w.items) {completes : Prop}
    (rest : Stepped c w' w'' completes) : Stepped c w w'' completes := by
  refine ⟨rest.inv, fun ended => ?_, fun fresh open_ => ?_, fun fresh ended => ?_⟩
  · obtain ⟨over_, items⟩ := rest.keeps (h.ended.trans ended)
    exact ⟨over_, items.trans same⟩
  · obtain ⟨⟨more, items, plain⟩, lines⟩ := rest.goes (h.ended.trans fresh) open_
    exact ⟨⟨more, by rw [items, same], plain⟩, fun before => lines (h.lines fresh before)⟩
  · obtain ⟨more, last, reason, items, plain, late, done⟩ := rest.ends (h.ended.trans fresh) ended
    exact ⟨more, last, reason, by rw [items, same], plain, late, done⟩

/-- A change of what neither the stream nor its lines are made of. -/
theorem Flows.inv (h : Flows c w w') (inv : Inv w) : Inv w' :=
  h.finalized.trans (inv.trans h.ended.symm)

theorem stepped_afterGroup {code : Option ℤ} {signal : Option Text} {collected : Except Text (List α)}
    (inv : Inv w) {completes : Prop} (done : code = some 0 → Ready c collected w → completes) :
    Stepped c w (afterGroup c code signal collected w) completes := by
  cases going : w.stopReason with
  | some reason =>
    unfold afterGroup
    rw [if_pos (by rw [going]; rfl)]
    exact (flows_await _ w).stepped inv _
  | none =>
    cases ended : w.ended with
    | false =>
      obtain ⟨last, ends, late, completed⟩ :
          ∃ last, Ends w (afterGroup c code signal collected w) last ∧ _ :=
        ends_afterGroup ended (inv.trans ended) going
      apply ends.stepped late
      intro is
      obtain ⟨zero, quiet, descriptors, found⟩ := completed is
      exact done zero ⟨going, quiet, descriptors, found⟩
    | true => exact (grows_afterGroup ended (inv.trans ended) going).stepped inv ended _

theorem stepped_finishWith {phase : LifecyclePhase} {reason : Text} (inv : Inv w)
    (plain : phase = .failed ∨ phase = .cancelled) {completes : Prop} :
    Stepped c w (finishWith c phase reason w) completes := by
  cases ended : w.ended with
  | false =>
    apply (ends_finishWith phase reason ended (inv.trans ended)).stepped
    · rcases plain with is | is <;> rw [is] <;> nofun
    · rcases plain with is | is <;> rw [is] <;> nofun
  | true =>
    unfold finishWith
    rw [if_pos (inv.trans ended)]
    exact (Grows.refl w).stepped inv ended _

theorem stepped_onClose (code : Option ℤ) (signal : Option Text)
    (collected : Except Text (List α)) (inv : Inv w) :
    Stepped c w (onClose c code signal collected w)
      (Completes c w (.close code signal collected)) := by
  have seen : Flows c w (stdioClosed w) := flows_stdioClosed w
  unfold onClose
  dsimp only
  split_ifs
  · have begun := seen.trans (flows_beginTermination (c := c) _)
    exact (begun.trans (flows_await _ _)).stepped inv _
  · apply seen.before rfl
    apply stepped_afterGroup (seen.inv inv)
    intro zero ready
    rw [zero]
    exact .closed ready

theorem stepped_onResume (index : ℕ) (collected : Except Text (List α)) (inv : Inv w) :
    Stepped c w (onResume c index collected w) (Completes c w (.resume index collected)) := by
  have gone : Flows c w (goOn index w) := flows_goOn index w
  unfold onResume
  cases there : w.closing[index]? with
  | none => exact (Flows.refl w).stepped inv _
  | some closing =>
    obtain ⟨cancelling, code, signal⟩ := closing
    -- Whether the group is gone or no termination began.
    have goes : Stepped c w
        (if cancelling then finishWith c .cancelled (w.stopReason.getD []) (goOn index w)
          else afterGroup c code signal collected (goOn index w))
        (Completes c w (.resume index collected)) := by
      apply gone.before rfl
      cases cancelling with
      | true => exact stepped_finishWith (gone.inv inv) (.inr rfl)
      | false =>
        apply stepped_afterGroup (gone.inv inv)
        intro zero ready
        rw [zero] at there
        exact .resumed there ready
    dsimp only
    cases w.termination with
    | notBegun => exact goes
    | pending => exact (Flows.refl w).stepped inv _
    | settled result =>
      cases result with
      | ok u => exact goes
      | error message =>
        dsimp only
        split_ifs
        · have closed : Flows c (goOn index w) (resolveClosed (goOn index w)) :=
            flows_still rfl rfl rfl rfl rfl
          exact (gone.trans closed).stepped inv _
        · exact gone.stepped inv _

theorem flows_ownedStop (reason : Text) (closed exited running : Bool) (w : World α μ τ δ) :
    Flows c w (ownedStop c reason closed exited running w) := by
  unfold ownedStop
  split_ifs
  · exact Flows.refl _
  · exact flows_stopWith reason w

theorem stepped_step (inv : Inv w) (event : Event α) :
    Stepped c w (step c w event) (Completes c w event) := by
  have same : Flows c w w := Flows.refl w
  cases event with
  | spawn => exact (flows_onSpawn w).stepped inv _
  | error message => exact (flows_onError message w).stepped inv _
  | data stream chunk => exact (flows_feed stream chunk w).stepped inv _
  | exit => exact (flows_onExit w).stepped inv _
  | close code signal collected => exact stepped_onClose code signal collected inv
  | terminated result => exact (flows_onTerminated result w).stepped inv _
  | resume index collected => exact stepped_onResume index collected inv
  | stop reason =>
    unfold step
    dsimp only
    split_ifs
    · exact same.stepped inv _
    · exact (flows_stopWith reason w).stepped inv _
  | ownedStop reason closed exited running =>
    unfold step
    dsimp only
    split_ifs
    · exact (flows_ownedStop reason closed exited running w).stepped inv _
    · exact same.stepped inv _
  | startupAbort =>
    have aborted : Flows c w { w with startupAborted := true } :=
      flows_still rfl rfl rfl rfl rfl
    exact (aborted.trans (flows_stopWith userCancelled _)).stepped inv _
  | guardianError =>
    unfold step
    dsimp only
    split_ifs
    · exact (flows_stopWith userCancelled w).stepped inv _
    · exact same.stepped inv _

end Artoo.Node.ProcessRun
