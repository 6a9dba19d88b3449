import Artoo.Node.ProcessStream

/-! The lines of a byte stream do not depend on how it is cut. -/
namespace Artoo.Node.LineEmitter

open ProcessRun (Text StringDecoder dropReturn splitOn_append getLastD_append)

/-! ## The emitter -/

inductive Chunk where
  | text (text : Text)
  | bytes (bytes : List UInt8)

/-- The closure of an emitter, and the lines given to `onLine` so far. -/
structure Emitter (δ : Type) where
  buffer : Text
  decoder : δ
  emitted : List Text

section Emit

variable {δ : Type} (d : StringDecoder δ)

def start : Emitter δ := ⟨[], d.start, []⟩

/-- The loop of `feed`: while a line feed is there, what stands before it is a line. -/
def drain (e : Emitter δ) : Emitter δ :=
  match _there : e.buffer.findIdx? (· == '\n') with
  | some index => drain { e with buffer := e.buffer.drop (index + 1),
                                 emitted := e.emitted ++ [dropReturn (e.buffer.take index)] }
  | none => e
termination_by e.buffer.length
decreasing_by
  obtain ⟨small, -⟩ := List.findIdx?_eq_some_iff_getElem.mp _there
  rw [List.length_drop]
  omega

/-- A text stands as it is. -/
def write (decoder : δ) : Chunk → δ × Text
  | .text text => (decoder, text)
  | .bytes bytes => d.write decoder bytes

def feed (e : Emitter δ) (chunk : Chunk) : Emitter δ :=
  let (decoder, text) := write d e.decoder chunk
  drain { e with decoder, buffer := e.buffer ++ text }

def flush (e : Emitter δ) : Emitter δ :=
  let (decoder, text) := d.finish e.decoder
  let rest := e.buffer ++ text
  if rest = [] then { e with decoder, buffer := rest }
  else { e with decoder, buffer := [], emitted := e.emitted ++ [dropReturn rest] }

def run (chunks : List Chunk) : Emitter δ := flush d (chunks.foldl (feed d) (start d))

/-- The decoder after the chunks. -/
def after (chunks : List Chunk) (decoder : δ) : δ :=
  chunks.foldl (fun decoder chunk => (write d decoder chunk).1) decoder

/-- All that the chunks are decoded to, with the end of the decoder. -/
def decoded : List Chunk → δ → Text
  | [], decoder => (d.finish decoder).2
  | chunk :: chunks, decoder =>
    (write d decoder chunk).2 ++ decoded chunks (write d decoder chunk).1

end Emit

/-- The lines of a text: the last may be unterminated, and each loses one carriage return. -/
def lines (text : Text) : List Text :=
  let pieces := text.splitOn '\n'
  (if pieces.getLastD [] = [] then pieces.dropLast else pieces).map dropReturn

/-! ## What a feed emits -/

section Lines

variable {δ : Type} {d : StringDecoder δ}

/-- The loop leaves what follows the last line feed. -/
theorem drain_eq (e : Emitter δ) :
    drain e = { e with buffer := (e.buffer.splitOn '\n').getLastD [],
                       emitted := e.emitted ++ (e.buffer.splitOn '\n').dropLast.map dropReturn } := by
  induction e using drain.induct with
  | case1 e index there ih =>
    obtain ⟨small, is, before⟩ := List.findIdx?_eq_some_iff_getElem.mp there
    have feed : e.buffer[index] = '\n' := beq_iff_eq.mp is
    have cut : e.buffer = e.buffer.take index ++ '\n' :: e.buffer.drop (index + 1) := by
      rw [← feed, ← List.drop_eq_getElem_cons small, List.take_append_drop]
    have none_ : '\n' ∉ e.buffer.take index := by
      intro among
      obtain ⟨j, small', is'⟩ := List.mem_take_iff_getElem.mp among
      exact before j (by omega) (beq_iff_eq.mpr is')
    have pieces : e.buffer.splitOn '\n' =
        e.buffer.take index :: (e.buffer.drop (index + 1)).splitOn '\n' := by
      conv_lhs => rw [cut]
      exact List.splitOn_append_cons_self_of_not_mem none_ _
    have some_ := List.splitOn_ne_nil '\n' (e.buffer.drop (index + 1))
    rw [drain]
    split
    case h_2 off => cases there.symm.trans off
    case h_1 found same =>
    cases there.symm.trans same
    rw [ih, pieces]
    simp only [List.dropLast_cons_of_ne_nil some_, List.map_cons, List.append_assoc,
      List.singleton_append]
    rw [← List.singleton_append (x := e.buffer.take index), getLastD_append some_]
  | case2 e there =>
    have none_ : '\n' ∉ e.buffer := by
      intro among
      have off := List.findIdx?_eq_none_iff.mp there '\n' among
      exact Bool.noConfusion off
    rw [drain]
    split
    case h_1 found same => cases there.symm.trans same
    case h_2 same => simp [List.splitOn_eq_singleton none_]

/-- What a run is given for a text are the lines of the loop. -/
theorem feedText_drain {α μ τ : Type} (c : ProcessRun.Process α μ τ δ) (stream : ProcessRun.Stream)
    (text : Text) (w : ProcessRun.World α μ τ δ) :
    let e := ProcessRun.emitter stream w
    let drained := drain ⟨e.buffer ++ text, e.decoder, []⟩
    ProcessRun.feedText c stream text w =
      drained.emitted.foldl (fun w line => ProcessRun.onLine c stream line w)
        (ProcessRun.setEmitter stream
          { e with buffer := drained.buffer, fed := e.fed ++ text } w) := by
  intro e drained
  have is := drain_eq (δ := δ) ⟨e.buffer ++ text, e.decoder, []⟩
  unfold ProcessRun.feedText ProcessRun.onLines
  simp only [drained, is, List.nil_append, List.foldl_map]
  rfl

theorem lines_append (a b : Text) :
    lines (a ++ b) =
      (a.splitOn '\n').dropLast.map dropReturn ++ lines ((a.splitOn '\n').getLastD [] ++ b) := by
  have some_ := List.splitOn_ne_nil '\n' ((a.splitOn '\n').getLastD [] ++ b)
  unfold lines
  dsimp only
  rw [splitOn_append '\n' a b, getLastD_append some_, List.dropLast_append_of_ne_nil some_]
  split_ifs
  · rw [List.map_append]
  · rw [List.map_append]

theorem lines_single {text : Text} (none_ : '\n' ∉ text) :
    lines text = if text = [] then [] else [dropReturn text] := by
  unfold lines
  rw [List.splitOn_eq_singleton none_]
  by_cases nothing : text = []
  · rw [if_pos nothing]
    exact congrArg (List.map dropReturn) (if_pos nothing)
  · rw [if_neg nothing]
    exact congrArg (List.map dropReturn) (if_neg nothing)

/-- No line feed is left in a buffer. -/
theorem rest_single (text : Text) : '\n' ∉ (text.splitOn '\n').getLastD [] := by
  induction text with
  | nil => exact List.not_mem_nil
  | cons c text ih =>
    rw [List.splitOn_cons_eq_if_modifyHead]
    have some_ := List.splitOn_ne_nil '\n' text
    by_cases is : (c == '\n') = true
    · rw [if_pos is, ← List.singleton_append, getLastD_append some_]
      exact ih
    · rw [if_neg is]
      generalize text.splitOn '\n' = pieces at ih some_
      cases pieces with
      | nil => exact absurd rfl some_
      | cons piece pieces =>
        cases pieces with
        | nil =>
          intro among
          rcases List.mem_cons.mp among with rfl | among
          · exact is (beq_self_eq_true '\n')
          · exact ih among
        | cons next pieces => exact ih

/-- What one chunk adds to the text. -/
theorem feed_lines (e : Emitter δ) (chunk : Chunk) (more : Text) :
    '\n' ∉ (feed d e chunk).buffer ∧
      (feed d e chunk).emitted ++ lines ((feed d e chunk).buffer ++ more) =
        e.emitted ++ lines (e.buffer ++ (write d e.decoder chunk).2 ++ more) := by
  unfold feed
  dsimp only
  rw [drain_eq, lines_append (e.buffer ++ (write d e.decoder chunk).2) more]
  exact ⟨rest_single _, List.append_assoc _ _ _⟩

theorem feed_decoder (e : Emitter δ) (chunk : Chunk) :
    (feed d e chunk).decoder = (write d e.decoder chunk).1 := by
  unfold feed
  dsimp only
  rw [drain_eq]

/-- Feeding the rest of a stream, and the end. -/
theorem flush_feeds (chunks : List Chunk) (e : Emitter δ) (single : '\n' ∉ e.buffer)
    (last : '\n' ∉ (d.finish (after d chunks e.decoder)).2) :
    (flush d (chunks.foldl (feed d) e)).emitted =
        e.emitted ++ lines (e.buffer ++ decoded d chunks e.decoder) ∧
      (flush d (chunks.foldl (feed d) e)).buffer = [] := by
  induction chunks generalizing e with
  | nil =>
    have none_ : '\n' ∉ e.buffer ++ (d.finish e.decoder).2 := by
      intro among
      exact (List.mem_append.mp among).elim single last
    rw [decoded, lines_single none_]
    unfold flush
    dsimp only [List.foldl_nil]
    split_ifs with nothing
    · exact ⟨(List.append_nil _).symm, nothing⟩
    · exact ⟨rfl, rfl⟩
  | cons chunk chunks ih =>
    have decoder := feed_decoder (d := d) e chunk
    obtain ⟨single', fed⟩ := feed_lines (d := d) e chunk
      (decoded d chunks (write d e.decoder chunk).1)
    have last' : '\n' ∉ (d.finish (after d chunks (feed d e chunk).decoder)).2 := by
      rw [decoder]
      exact last
    obtain ⟨emitted, nothing⟩ := ih (feed d e chunk) single' last'
    rw [decoder, fed] at emitted
    refine ⟨?_, nothing⟩
    rw [List.foldl_cons, emitted, decoded, List.append_assoc]

end Lines

/-- However a stream of bytes is cut, the lines of the whole are emitted. `whole` and `last` say what
node's decoder does: the chunks decode as their concatenation, and its end gives only what stands
for an incomplete character. -/
theorem run_emits_lines {δ : Type} (d : StringDecoder δ) (decode : List UInt8 → Text)
    (whole : ∀ chunks : List (List UInt8),
      decoded d (chunks.map .bytes) d.start = decode chunks.flatten)
    (last : ∀ chunks : List (List UInt8), '\n' ∉ (d.finish (after d (chunks.map .bytes) d.start)).2)
    (chunks : List (List UInt8)) :
    (run d (chunks.map .bytes)).emitted = lines (decode chunks.flatten) ∧
      (run d (chunks.map .bytes)).buffer = [] := by
  have fed := flush_feeds (chunks.map .bytes) (start d) List.not_mem_nil (last chunks)
  unfold run
  refine ⟨?_, fed.2⟩
  rw [fed.1, ← whole chunks]
  rfl

/-! ## A decoder -/

/-- How many bytes of a character are still to come, and its value so far. -/
structure Partial where
  missing : ℕ := 0
  value : ℕ := 0

def decodeByte (p : Partial) (b : UInt8) : Partial × Text :=
  let n := b.toNat
  if p.missing = 0 then
    if n < 0x80 then ({}, [Char.ofNat n])
    else if n < 0xE0 then (⟨1, n % 0x20⟩, [])
    else if n < 0xF0 then (⟨2, n % 0x10⟩, [])
    else (⟨3, n % 0x8⟩, [])
  else
    let value := p.value * 0x40 + n % 0x40
    if p.missing = 1 then ({}, [Char.ofNat value]) else (⟨p.missing - 1, value⟩, [])

def decodeBytes : List UInt8 → Partial → Partial × Text
  | [], p => (p, [])
  | b :: bytes, p =>
    let (p, text) := decodeByte p b
    let (p, more) := decodeBytes bytes p
    (p, text ++ more)

def decodeRest (p : Partial) : Text := if p.missing = 0 then [] else [Char.ofNat 0xFFFD]

/-- A decoder of well-formed UTF-8; a last character may be cut off. -/
def utf8Decoder : StringDecoder Partial where
  start := {}
  write p bytes := decodeBytes bytes p
  finish p := ({}, decodeRest p)

def decodeUtf8 (bytes : List UInt8) : Text :=
  let (p, text) := decodeBytes bytes {}
  text ++ decodeRest p

theorem decodeBytes_append (a b : List UInt8) (p : Partial) :
    decodeBytes (a ++ b) p =
      ((decodeBytes b (decodeBytes a p).1).1,
        (decodeBytes a p).2 ++ (decodeBytes b (decodeBytes a p).1).2) := by
  induction a generalizing p with
  | nil => rfl
  | cons x a ih =>
    rw [List.cons_append]
    simp only [decodeBytes, ih, List.append_assoc]

theorem decoded_utf8 (chunks : List (List UInt8)) (p : Partial) :
    decoded utf8Decoder (chunks.map .bytes) p =
      (decodeBytes chunks.flatten p).2 ++ decodeRest (decodeBytes chunks.flatten p).1 := by
  induction chunks generalizing p with
  | nil => rfl
  | cons chunk chunks ih =>
    rw [List.map_cons, decoded, List.flatten_cons, decodeBytes_append, List.append_assoc]
    exact congrArg _ (ih _)

theorem decodeRest_single (p : Partial) : '\n' ∉ decodeRest p := by
  unfold decodeRest
  split_ifs
  · exact List.not_mem_nil
  · exact (by decide : '\n' ∉ [Char.ofNat 0xFFFD])

/-- Cut inside a character and between a carriage return and its line feed. -/
theorem run_emits_lines_cut :
    (run utf8Decoder (List.map .bytes [[0xC3], [0xA9, 13], [10, 98, 10, 99]])).emitted =
      [['é'], ['b'], ['c']] := by
  have ran := run_emits_lines utf8Decoder decodeUtf8 (fun chunks => decoded_utf8 chunks {})
    (fun _ => decodeRest_single _) [[0xC3], [0xA9, 13], [10, 98, 10, 99]]
  rw [ran.1]
  rfl

end Artoo.Node.LineEmitter
