import OpencodeToolbelt.Async.Machine

/-!
# Programs that run alone

A program that no other thread interrupts takes the world in which it starts to the world
that it leaves. Such a run is one of the interleaved runs of the machine.
-/

namespace Machine

variable {Op : Type} {Ans : Op → Type} {ε α β World Env : Type}

/-- The program, run alone by a thread, settles and leaves a world. -/
def Leads (M : Machine Op Ans World Env) (i : ℕ) :
    Program Op Ans ε α → World → Except ε α → World → Prop
  | .done a, w, r, w' => r = .ok a ∧ w' = w
  | .fail e, w, r, w' => r = .error e ∧ w' = w
  | .call o k, w, r, w' => ∃ a, M.allows i w o a ∧ Leads M i (k a) (M.post i w o a) r w'

variable {M : Machine Op Ans World Env} {i : ℕ}

theorem Leads.bind {p : Program Op Ans ε α} {f : α → Program Op Ans ε β} {a : α}
    {r : Except ε β} {w w' w'' : World} (hp : M.Leads i p w (.ok a) w')
    (hf : M.Leads i (f a) w' r w'') :
  M.Leads i (p.bind f) w r w''
  := by
  induction p generalizing w with
  | done a' =>
      obtain ⟨ha, rfl⟩ := hp
      obtain rfl := Except.ok.inj ha
      apply hf
  | fail e =>
      obtain ⟨he, -⟩ := hp
      cases he
  | call o k ih =>
      obtain ⟨a', ha', hk⟩ := hp
      use a', ha'
      apply ih a' hk

/-- A sequence of programs settles after its first part has. -/
theorem Leads.of_bind {p : Program Op Ans ε α} {f : α → Program Op Ans ε β}
    {r : Except ε β} {w w'' : World} (h : M.Leads i (p.bind f) w r w'') :
  (∃ a w', M.Leads i p w (.ok a) w' ∧ M.Leads i (f a) w' r w'') ∨
    ∃ e, M.Leads i p w (.error e) w'' ∧ r = .error e
  := by
  induction p generalizing w with
  | done a =>
      left
      use a, w, ⟨rfl, rfl⟩
      apply h
  | fail e =>
      obtain ⟨rfl, rfl⟩ := h
      right
      use e, ⟨rfl, rfl⟩
  | call o k ih =>
      obtain ⟨a, ha, hk⟩ := h
      obtain ⟨b, w', hp, hf⟩ | ⟨e, hp, hr⟩ := ih a hk
      · left
        use b, w', ⟨a, ha, hp⟩, hf
      · right
        use e, ⟨a, ha, hp⟩, hr

/-- A program that runs alone is a thread of the machine of which only this one acts. -/
theorem Leads.run {p : Program Op Ans ε α} {r : Except ε α} {w w' : World}
    {pool : ℕ → Program Op Ans ε α} (h : M.Leads i p w r w') (hp : pool i = p) :
  M.Run ⟨w, pool⟩ ⟨w', Function.update pool i (.settle r)⟩
  := by
  induction p generalizing w pool with
  | done a =>
      obtain ⟨rfl, rfl⟩ := h
      have hsame : Function.update pool i (Program.settle (.ok a)) = pool := by
        rw [Function.update_eq_self_iff, hp]
        rfl
      rw [hsame]
      apply Relation.ReflTransGen.refl
  | fail e =>
      obtain ⟨rfl, rfl⟩ := h
      have hsame : Function.update pool i (Program.settle (.error e)) = pool := by
        rw [Function.update_eq_self_iff, hp]
        rfl
      rw [hsame]
      apply Relation.ReflTransGen.refl
  | call o k ih =>
      obtain ⟨a, ha, hk⟩ := h
      have hnext : Function.update pool i (k a) i = k a := Function.update_self _ _ _
      have hrest := ih a hk hnext
      rw [Function.update_idem] at hrest
      apply Relation.ReflTransGen.head _ hrest
      apply Step.act i o k a hp ha

end Machine
