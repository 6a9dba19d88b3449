import Artoo.Lib.Interference

/-! Programs that keep the views of their statements. -/
namespace Artoo.Lib.Tx

variable {σ ω κ ι ε α β : Type}

/-- The program with the views of its statements beside the result, latest first. -/
def seen : Tx σ ω κ ι ε α → List σ → Tx σ ω κ ι ε (α × List σ)
  | done a, views => done (a, views)
  | fail e, _ => fail e
  | draw next, views => draw fun i => seen (next i) views
  | stmt locks writes next, views =>
    stmt locks writes fun view => seen (next view) (view :: views)

theorem seen_bind {p : Tx σ ω κ ι ε α} {f : α → Tx σ ω κ ι ε β} {views : List σ} :
    seen (p >>= f) views = seen p views >>= fun r => seen (f r.1) r.2 := by
  induction p generalizing views with
  | done a => rfl
  | fail e => rfl
  | draw next ih => exact congrArg draw (funext fun i => ih i)
  | stmt locks writes next ih => exact congrArg (stmt locks writes) (funext fun view => ih view)

variable [Tables σ ω κ] {R : Rely σ κ} {s : Progress σ ω κ} {p : Tx σ ω κ ι ε α} {views : List σ}

/-- What a program ends in does not depend on what it keeps. -/
theorem under_seen {post : α → Progress σ ω κ → Prop} (h : under R p post s) :
    under R (seen p views) (fun r s' => post r.1 s') s := by
  induction p generalizing s views with
  | done a => exact h
  | fail e => trivial
  | draw next ih => exact fun i => ih i (h i)
  | stmt locks writes next ih => exact fun db later => ih _ (h db later)

theorem under_seen_seq {mid : α → Progress σ ω κ → Prop} {f : α → Tx σ ω κ ι ε β}
    {post : β × List σ → Progress σ ω κ → Prop} (first : under R p mid s)
    (rest : ∀ a s' views, mid a s' → under R (seen (f a) views) post s') :
    under R (seen (p >>= f) views) post s := by
  rw [seen_bind]
  exact under_seq (under_seen first) fun r s' done_ => rest r.1 s' r.2 done_

end Artoo.Lib.Tx
