import Mathlib.Logic.Function.Basic
import NovaRtl.Transact.Safety

/-!
# Systems of clients

Clients `i : ι` share one state. Each is at rest or inside a program; at rest it may
invoke another one. All of them can be halted together: at rest always, inside a program
where the system says so. Halting drops the programs and keeps what `halted` keeps.

`Certified` lists what makes an invariant of the system: every program a client may
invoke is safe between the changes of the others, and halting keeps the invariant. The
invariant may tie the state to resources that the clients hold, one for each client.
`Certified.sound` is the resulting rule for all reachable configurations, and
`Certified.history` relates any two states of one run.
-/

namespace Transact

structure System (ι σ ε : Type) {Req : Type} (Ans : Req → Type) where
  env : Env σ Ans
  invokes : ι → σ → Prog σ ε Ans Unit → Prop
  mayHalt : σ → Prop
  halted : σ → σ

structure Config (ι σ ε : Type) {Req : Type} (Ans : Req → Type) where
  running : ι → Option (Prog σ ε Ans Unit)
  state : σ

variable {ι σ ε Req γ : Type} {Ans : Req → Type} [DecidableEq ι]

def Config.AtRest (c : Config ι σ ε Ans) : Prop := ∀ i, c.running i = none

def Config.resting (ι : Type) (ε : Type) {σ Req : Type} (Ans : Req → Type) (s : σ) :
    Config ι σ ε Ans := ⟨fun _ => none, s⟩

namespace System

inductive Step (S : System ι σ ε Ans) : Config ι σ ε Ans → Config ι σ ε Ans → Prop where
  | invoke {c : Config ι σ ε Ans} {i : ι} {p : Prog σ ε Ans Unit} :
      c.running i = none → S.invokes i c.state p →
      Step S c ⟨Function.update c.running i (some p), c.state⟩
  | advance {c : Config ι σ ε Ans} {i : ι} {p q : Prog σ ε Ans Unit} {t : σ} :
      c.running i = some p → Transact.Step S.env (p, c.state) (q, t) →
      Step S c ⟨Function.update c.running i (some q), t⟩
  | finish {c : Config ι σ ε Ans} {i : ι} {p : Prog σ ε Ans Unit} :
      c.running i = some p → p.Finished →
      Step S c ⟨Function.update c.running i none, c.state⟩
  | halt {c : Config ι σ ε Ans} :
      c.AtRest ∨ S.mayHalt c.state → Step S c (.resting ι ε Ans (S.halted c.state))

abbrev Run (S : System ι σ ε Ans) : Config ι σ ε Ans → Config ι σ ε Ans → Prop :=
  Relation.ReflTransGen S.Step

/-- What makes `V` an invariant of the system and `J i` one of client `i` at rest. `V` may
speak about the resources of all clients; a client begins every program with `g₀`. -/
structure Certified (S : System ι σ ε Ans) (V : (ι → γ) → σ → Prop) (J : ι → σ → Prop)
    (R : ι → σ → σ → Prop) (G : ι → γ → σ → σ → γ → Prop) (g₀ : γ) : Prop where
  refl : ∀ i, Std.Refl (R i)
  trans : ∀ i, IsTrans σ (R i)
  compatible : ∀ {i j g s t g'}, i ≠ j → G j g s t g' → R i s t
  preserved : ∀ {ρ i s t g'}, V ρ s → G i (ρ i) s t g' → V (Function.update ρ i g') t
  dropped : ∀ {ρ i s}, V ρ s → V (Function.update ρ i g₀) s
  stable : ∀ {i s t}, J i s → R i s t → J i t
  invoked : ∀ {ρ i s p}, V ρ s → J i s → S.invokes i s p →
    Safe S.env (R i) (G i) (fun _ _ t => J i t) p g₀ s
  halted : ∀ {ρ s}, V ρ s → ((∀ i, J i s) ∨ S.mayHalt s) →
    V (fun _ => g₀) (S.halted s) ∧ ∀ i, J i (S.halted s)

variable {S : System ι σ ε Ans} {V : (ι → γ) → σ → Prop} {J : ι → σ → Prop}
  {R : ι → σ → σ → Prop} {G : ι → γ → σ → σ → γ → Prop} {g₀ : γ}

/-- A client at rest satisfies `J`; one inside a program has a safe rest of it to run, with
the resource that it holds in `ρ`. -/
def Sound (S : System ι σ ε Ans) (V : (ι → γ) → σ → Prop) (J : ι → σ → Prop)
    (R : ι → σ → σ → Prop) (G : ι → γ → σ → σ → γ → Prop) (ρ : ι → γ)
    (c : Config ι σ ε Ans) : Prop :=
  V ρ c.state ∧ ∀ i,
    (c.running i = none → J i c.state) ∧
    ∀ p, c.running i = some p → Safe S.env (R i) (G i) (fun _ _ t => J i t) p (ρ i) c.state

/-- The changes a step can make: none, one client's, or a halt. -/
def Change (S : System ι σ ε Ans) (G : ι → γ → σ → σ → γ → Prop) (ρ : ι → γ) (s t : σ) : Prop :=
  t = s ∨ (∃ i g', G i (ρ i) s t g') ∨ t = S.halted s

theorem Certified.sound_step (h : S.Certified V J R G g₀) {ρ : ι → γ} {c d : Config ι σ ε Ans}
    (hc : S.Sound V J R G ρ c) (hstep : S.Step c d) :
    S.Change G ρ c.state d.state ∧ ∃ ρ', S.Sound V J R G ρ' d := by
  obtain ⟨hV, hclients⟩ := hc
  cases hstep with
  | @invoke i p hi hp =>
    refine ⟨.inl rfl, Function.update ρ i g₀, h.dropped hV, fun j => ?_⟩
    rcases eq_or_ne j i with rfl | hj
    · refine ⟨by simp, fun q hq => ?_⟩
      obtain rfl : p = q := by simpa using hq
      simpa using h.invoked hV ((hclients j).1 hi) hp
    · simpa [hj] using hclients j
  | @advance i p q t hi hstep =>
    have := h.refl i
    -- what another client may assume survives the step
    have hothers : ∀ j, j ≠ i → R j c.state t →
        (c.running j = none → J j t) ∧
        ∀ q, c.running j = some q → Safe S.env (R j) (G j) (fun _ _ t => J j t) q (ρ j) t := by
      intro j _ hR
      have := h.trans j
      exact ⟨fun hn => h.stable ((hclients j).1 hn) hR,
        fun q hq => ((hclients j).2 q hq).stable hR⟩
    obtain ⟨rfl, hsafe⟩ | ⟨g', hg, hsafe⟩ := ((hclients i).2 p hi).step hstep
    · refine ⟨.inl rfl, ρ, hV, fun j => ?_⟩
      rcases eq_or_ne j i with rfl | hj
      · refine ⟨by simp, fun q' hq => ?_⟩
        obtain rfl : q = q' := by simpa using hq
        exact hsafe
      · simpa [hj] using hclients j
    · refine ⟨.inr (.inl ⟨i, g', hg⟩), Function.update ρ i g', h.preserved hV hg, fun j => ?_⟩
      rcases eq_or_ne j i with rfl | hj
      · refine ⟨by simp, fun q' hq => ?_⟩
        obtain rfl : q = q' := by simpa using hq
        simpa using hsafe
      · simpa [hj] using hothers j hj (h.compatible hj hg)
  | @finish i p hi hp =>
    have := h.refl i
    refine ⟨.inl rfl, ρ, hV, fun j => ?_⟩
    rcases eq_or_ne j i with rfl | hj
    · refine ⟨fun _ => ?_, by simp⟩
      have hsafe := (hclients j).2 p hi
      cases p with
      | ret a => exact Safe.finished.1 a hsafe
      | throw e => exact Safe.finished.2 e hsafe
      | commit f k => exact hp.elim
      | call r k => exact hp.elim
    · simpa [hj] using hclients j
  | halt hhalt =>
    have hJ : (∀ i, J i c.state) ∨ S.mayHalt c.state :=
      hhalt.imp_left fun hrest i => (hclients i).1 (hrest i)
    obtain ⟨hV', hJ'⟩ := h.halted hV hJ
    exact ⟨.inr (.inr rfl), _, hV', fun i => ⟨fun _ => hJ' i, by simp [Config.resting]⟩⟩

/-- The invariant holds in every configuration a run reaches. -/
theorem Certified.sound (h : S.Certified V J R G g₀) {ρ : ι → γ} {c d : Config ι σ ε Ans}
    (hc : S.Sound V J R G ρ c) (hrun : S.Run c d) : ∃ ρ', S.Sound V J R G ρ' d := by
  induction hrun with
  | refl => exact ⟨ρ, hc⟩
  | tail _ hstep ih =>
    obtain ⟨ρ', hsound⟩ := ih
    exact (h.sound_step hsound hstep).2

/-- Any preorder that contains every change relates the two ends of a run. -/
theorem Certified.history (h : S.Certified V J R G g₀) {T : σ → σ → Prop}
    (hrefl : ∀ s, T s s) (htrans : ∀ {s t u}, T s t → T t u → T s u)
    (hG : ∀ {ρ i s t g'}, V ρ s → G i (ρ i) s t g' → T s t) (hhalt : ∀ s, T s (S.halted s))
    {ρ : ι → γ} {c d : Config ι σ ε Ans} (hc : S.Sound V J R G ρ c) (hrun : S.Run c d) :
    T c.state d.state := by
  induction hrun with
  | refl => exact hrefl _
  | @tail c' d' hrun hstep ih =>
    obtain ⟨ρ', hsound⟩ := h.sound hc hrun
    refine htrans ih ?_
    obtain heq | ⟨i, g', hg⟩ | heq := (h.sound_step hsound hstep).1
    · exact heq ▸ hrefl _
    · exact hG hsound.1 hg
    · exact heq ▸ hhalt _

omit [DecidableEq ι] in
theorem Sound.resting {ρ : ι → γ} {s : σ} (hV : V ρ s) (hJ : ∀ i, J i s) :
    S.Sound V J R G ρ (.resting ι ε Ans s) :=
  ⟨hV, fun i => ⟨fun _ => hJ i, by simp [Config.resting]⟩⟩

/-! ## Execution against an oracle -/

/-- Client `i` takes its next step, or comes to rest when its program is finished. -/
def advance (S : System ι σ ε Ans) (o : σ → (r : Req) → Ans r) (c : Config ι σ ε Ans) (i : ι) :
    Config ι σ ε Ans :=
  match c.running i with
  | none => c
  | some p =>
    if p.Finished then ⟨Function.update c.running i none, c.state⟩
    else
      let d := Transact.advance S.env o (p, c.state)
      ⟨Function.update c.running i (some d.1), d.2⟩

/-- Let the clients of a schedule take their steps in turn. -/
def play (S : System ι σ ε Ans) (o : σ → (r : Req) → Ans r) (c : Config ι σ ε Ans)
    (schedule : List ι) : Config ι σ ε Ans := schedule.foldl (S.advance o) c

/-- If the next step of client `i` is a question, the oracle may answer it. -/
def Permits (S : System ι σ ε Ans) (o : σ → (r : Req) → Ans r) (c : Config ι σ ε Ans) (i : ι) :
    Prop :=
  match c.running i with
  | some (.call r _) => S.env.allows c.state r (o c.state r)
  | _ => True

/-- The oracle may answer every question that comes up. -/
def Playable (S : System ι σ ε Ans) (o : σ → (r : Req) → Ans r) :
    Config ι σ ε Ans → List ι → Prop
  | _, [] => True
  | c, i :: rest => S.Permits o c i ∧ Playable S o (S.advance o c i) rest

section Decidable

variable {o : σ → (r : Req) → Ans r} [∀ s r a, Decidable (S.env.allows s r a)]

instance (c : Config ι σ ε Ans) (i : ι) : Decidable (S.Permits o c i) := by
  unfold Permits
  split <;> infer_instance

instance decidablePlayable : (c : Config ι σ ε Ans) → (schedule : List ι) →
    Decidable (S.Playable o c schedule)
  | _, [] => .isTrue trivial
  | c, i :: rest =>
    have := decidablePlayable (S.advance o c i) rest
    inferInstanceAs (Decidable (S.Permits o c i ∧ S.Playable o (S.advance o c i) rest))

end Decidable

omit [DecidableEq ι] in
theorem permits_of_obedient {o : σ → (r : Req) → Ans r} (ho : ∀ s r, S.env.allows s r (o s r))
    (c : Config ι σ ε Ans) (i : ι) : S.Permits o c i := by
  unfold Permits
  split
  · exact ho _ _
  · trivial

theorem playable_of_obedient {o : σ → (r : Req) → Ans r} (ho : ∀ s r, S.env.allows s r (o s r))
    (c : Config ι σ ε Ans) (schedule : List ι) : S.Playable o c schedule := by
  induction schedule generalizing c with
  | nil => trivial
  | cons i rest ih => exact ⟨permits_of_obedient ho c i, ih _⟩

theorem advance_run {o : σ → (r : Req) → Ans r} {c : Config ι σ ε Ans} {i : ι}
    (h : S.Permits o c i) : S.Run c (S.advance o c i) := by
  unfold advance
  unfold Permits at h
  split
  · exact .refl
  · next p hp =>
    split
    · next hfin => exact .single (.finish hp hfin)
    · next hfin =>
      refine .single (.advance hp (advance_step S.env (fun r k hcall => ?_) hfin))
      subst hcall
      simpa only [hp] using h

theorem play_run {o : σ → (r : Req) → Ans r} {c : Config ι σ ε Ans} {schedule : List ι}
    (h : S.Playable o c schedule) : S.Run c (S.play o c schedule) := by
  induction schedule generalizing c with
  | nil => exact .refl
  | cons i rest ih => exact (advance_run h.1).trans (ih h.2)

/-- Client `i` invokes `p` and takes at most `n` steps. -/
def perform (S : System ι σ ε Ans) (o : σ → (r : Req) → Ans r) (n : ℕ) (c : Config ι σ ε Ans)
    (i : ι) (p : Prog σ ε Ans Unit) : Config ι σ ε Ans :=
  S.play o ⟨Function.update c.running i (some p), c.state⟩ (List.replicate n i)

theorem perform_run {o : σ → (r : Req) → Ans r} (ho : ∀ s r, S.env.allows s r (o s r)) (n : ℕ)
    {c : Config ι σ ε Ans} {i : ι} {p : Prog σ ε Ans Unit} (hi : c.running i = none)
    (hp : S.invokes i c.state p) : S.Run c (S.perform o n c i p) :=
  (Relation.ReflTransGen.single (.invoke hi hp)).trans (play_run (playable_of_obedient ho _ _))

end System

end Transact
