import Keyring.Proofs.Rotation.Upkeep
import Keyring.Proofs.Rotation.Visit

/-! # Errands within one bucket

While the clock stays in a bucket and the store does not change but by what the process creates
itself, every errand of the process finds the same key for the bucket before, and once a key is
stored for the bucket itself it finds that one. So what an errand makes of the window is determined
by the two keys.
-/

namespace Keyring.KeyWindow

/-- What a restore makes of a window: the key of the bucket before is installed, if there is one,
and then the bucket's own key. -/
def renew (w : KeyWindow) (previous : Option Key) (key : Key) : KeyWindow :=
  (previous.elim w w.rotate).rotate key

end Keyring.KeyWindow

namespace Keyring.Rotation

open Store

namespace Standing

variable {g g' g'' : Standing} {b : Bucket} {key : Key}

/-- What is live stays as it is, and no key of the bucket before comes or goes. -/
structure Stays (b : Bucket) (g g' : Standing) : Prop where
  live : ∀ name blob, g.live? name = some blob → g'.live? name = some blob
  previous : g'.live? b.previous.blobName = g.live? b.previous.blobName

theorem Stays.refl (b : Bucket) (g : Standing) : g.Stays b g := ⟨fun _ _ h => h, rfl⟩

/-- A store that stays as it is twice stays so. -/
theorem Stays.trans (h : g.Stays b g') (h' : g'.Stays b g'') : g.Stays b g'' :=
  ⟨fun name blob hlive => h'.live name blob (h.live name blob hlive), h'.previous.trans h.previous⟩

/-- The key of a bucket depends on its blob alone. -/
theorem keyOf_congr (h : g'.live? b.blobName = g.live? b.blobName) : g'.keyOf b = g.keyOf b := by
  cases hlive : g.live? b.blobName with
  | none => rw [keyOf_of_not_live (h.trans hlive), keyOf_of_not_live hlive]
  | some pem => rw [keyOf_of_live (h.trans hlive), keyOf_of_live hlive]

/-- The key of the bucket before stays what it is. -/
theorem Stays.keyOf_previous (h : g.Stays b g') : g'.keyOf b.previous = g.keyOf b.previous :=
  keyOf_congr h.previous

/-- Where something is stored, it is a key or cannot be read. -/
theorem keyOf_ne_none (h : (g.live? b.blobName).isSome) : g.keyOf b ≠ .ok none := by
  obtain ⟨pem, hlive⟩ := Option.isSome_iff_exists.mp h
  rw [keyOf_of_live hlive]
  cases Key.ofPem pem with
  | error err => exact fun h => by contradiction
  | ok key => exact fun h => Option.some_ne_none key (Except.ok.inj h)

/-- What is live stays live. -/
theorem Stays.isSome_live (h : g.Stays b g') {name : String} (hlive : (g.live? name).isSome) :
    (g'.live? name).isSome := by
  obtain ⟨blob, hblob⟩ := Option.isSome_iff_exists.mp hlive
  exact Option.isSome_of_mem (h.live name blob hblob)

/-- A bucket keeps its key. -/
theorem Stays.keyOf (h : g.Stays b g') (hkey : g.keyOf b = .ok (some key)) :
    g'.keyOf b = .ok (some key) :=
  keyOf_mono h.live hkey

/-- What an errand comes to that began with a window; `held` says that the bucket's own key was
stored then. A restore that comes out well installs the key of the bucket before and the bucket's
own one, a rotation accepts the bucket's own one. A failure leaves the window, but for a restore
that may have installed the key of the bucket before. -/
def Leads (b : Bucket) (v : KeyWindow) (held : Prop) (g : Standing) : Outcome → Prop
  | .restored (.ok b') => b' = b ∧ ∃ previous key, g.keyOf b.previous = .ok previous ∧
    g.keyOf b = .ok (some key) ∧
      g.own.window = v.renew previous key
  | .restored (.error _) => held → g.own.window = v
  | .rotated (.ok key) => g.keyOf b = .ok (some key) ∧ g.own.window = v.accept key
  | .rotated (.error _) => g.own.window = v
  | _ => False

end Standing

/-! ## Rules -/

/-- The rules of a process that stays in a bucket. -/
def stayRules (r : Rotater) (b : Bucket) : Rules Standing where
  may _ _ := True
  answers g q a g' :=
    (visitRules r.interval).answers g q a g' ∧ g.Stays b g' ∧ r.bucketAt g'.clock = b

section Answers

variable {interval : Duration} {α : Type} {g g' : Standing} {b : Bucket} {v : KeyWindow}

/-- The clock shows the time that was read. -/
theorem visit_clock {t : Duration} (hans : (visitRules interval).answers g .time t g') :
    t = g'.clock := by
  obtain ⟨h, reply, -, hanswer, -⟩ := hans
  obtain ⟨⟨a, s, o⟩, hreply, hrecord⟩ := Option.map_eq_some_iff.mp hanswer
  obtain ⟨rfl, rfl⟩ := Prod.mk.inj hrecord
  exact (Reply.answered_time hreply).1

/-- Whoever else acts, the window changes as if the process was alone with it. -/
theorem visit_window {q : Request} {a : q.Answer} (hans : (visitRules interval).answers g q a g') :
    (windowRules v).answers g.own.window q a g'.own.window := by
  obtain ⟨h, reply, hadds, hanswer, -⟩ := hans
  obtain ⟨⟨a', s, o⟩, hreply, hrecord⟩ := Option.map_eq_some_iff.mp hanswer
  obtain ⟨rfl, rfl⟩ := Prod.mk.inj hrecord
  have hwindow : h.own.window = g.own.window := hadds.window
  have hown {view : View} (hview : (s, o) = view) : o.window = view.2.window := by rw [← hview]
  rw [← hwindow]
  cases q with
  | time => exact hown (Reply.answered_time hreply).2
  | store c =>
      rcases Reply.answered_store hreply with ⟨-, hview⟩ | ⟨err, s', -, hview, -⟩
      · exact hown hview
      · exact hown hview
  | generate bits =>
      rcases Reply.answered_generate hreply with ⟨key, -, hview⟩ | ⟨err, -, hview⟩
      · exact hown hview
      · exact hown hview
  | current =>
      obtain ⟨ha, hview⟩ := Reply.answered_current hreply
      exact ⟨ha, hown hview⟩
  | install key => exact hown (Reply.answered_install hreply)

variable {r : Rotater}

/-- A promise to a process among others is one to a process that stays. -/
theorem stay_of_visit {p : Program α} {Q : α → Standing → Prop}
    (h : p.Meets (visitRules r.interval) Q g) : p.Meets (stayRules r b) Q g :=
  h.view (S := stayRules r b) (f := id) (fun _ _ => trivial) fun _ _ _ _ ha => ha.1

/-- So is a promise about the window to a process alone. -/
theorem stay_of_alone {p : Program α} {Q : α → KeyWindow → Prop}
    (h : p.Meets (windowRules v) Q g.own.window) :
    p.Meets (stayRules r b) (fun a g' => Q a g'.own.window) g :=
  h.view (S := stayRules r b) (f := fun g : Standing => g.own.window) (fun _ _ => trivial)
    fun _ _ _ _ ha => visit_window ha.1

/-- From its beginning to its end a program leaves what is stored. -/
theorem stay_stays (p : Program α) (g : Standing) :
    p.Meets (stayRules r b) (fun _ g' => g.Stays b g') g :=
  Program.meets_of_answers (R := stayRules r b) (Standing.Stays.refl b) Standing.Stays.trans
    (fun _ _ => trivial)
    (fun _ _ _ _ ha => ha.2.1) p g

end Answers

/-! ## Programs -/

section Programs

variable (r : Rotater) (b : Bucket) (g : Standing)

/-- A search that comes out well ends with what is stored. -/
theorem stay_find (c : Bucket) :
    (Rotater.find c).run.Meets (stayRules r b) (fun o g' => g.Stays b g' ∧
    g'.own.window = g.own.window ∧ ∀ found, o = .ok found → g'.keyOf c = .ok found) g := by
  apply ((stay_stays _ g).and
    ((stay_of_alone (meets_find_alone c)).and (stay_of_visit (visit_find c g)))).mono
  rintro o g' ⟨hstays, hwindow, hfound⟩
  refine ⟨hstays, hwindow, fun found ho => ?_⟩
  obtain ⟨access, -, -, hkey⟩ := hfound found ho
  exact hkey

/-- The end of a restore installs the bucket's own key. It fails only if that was not stored when it
was looked for. -/
theorem stay_installCurrent {current : Option Key}
    (hcurrent : ∀ key ∈ current, g.keyOf b = .ok (some key)) :
    (r.installCurrent b current).run.Meets (stayRules r b) (fun o g' => g.Stays b g' ∧
      match o with
      | .ok b' =>
        b' = b ∧ ∃ key, g'.keyOf b = .ok (some key) ∧ g'.own.window = g.own.window.rotate key
      | .error _ => current = none) g := by
  have hok := stay_of_visit (r := r) (b := b) (visit_installCurrent r b hcurrent)
  have herror : (r.installCurrent b current).run.Meets (stayRules r b)
      (fun o _ => ∀ err, o = .error err → current = none) g := by
    cases current with
    | none => exact (stay_stays _ g).mono fun _ _ _ _ _ => rfl
    | some key =>
        refine (Action.meets_bind (Action.install key) (fun _ => pure b) g).mpr
          ⟨trivial, fun _ g' _ err herr => ?_⟩
        contradiction
  apply ((stay_stays _ g).and (hok.and herror)).mono
  rintro (err | b') g' ⟨hstays, hok, herror⟩
  · exact ⟨hstays, herror err rfl⟩
  · obtain ⟨rfl, key, as, hadds, hkey, -⟩ := hok b' rfl
    exact ⟨hstays, rfl, key, hkey, hadds.window⟩

/-- A restore installs what is stored. It fails before it installs anything, if the bucket's own key
was stored when it began. -/
theorem stay_restore : r.restore.run.Meets (stayRules r b) (fun o g' =>
    g'.Leads b g.own.window (g.live? b.blobName).isSome (.restored o)) g := by
  rw [Rotater.restore, Action.meets_bind, Action.meets_now]
  refine ⟨trivial, fun t g₁ ha => ?_⟩
  obtain ⟨hans, hstays₁, hclock⟩ := ha
  have hwindow₁ := (visit_time hans).1
  obtain rfl := visit_clock hans
  simp only [Rotater.bucketAt] at hclock ⊢
  rw [hclock, Action.meets_bind]
  apply (stay_find r b g₁ b.previous).mono
  rintro (err | previous) g₂ ⟨hstays₂, hwindow₂, hprevious⟩
  · exact fun _ => hwindow₂.trans hwindow₁
  have hprevious := hprevious previous rfl
  simp only [Action.meets_bind]
  apply (stay_find r b g₂ b).mono
  rintro (err | current) g₃ ⟨hstays₃, hwindow₃, hcurrent⟩
  · exact fun _ => hwindow₃.trans (hwindow₂.trans hwindow₁)
  have hcurrent := hcurrent current rfl
  have hstays := hstays₁.trans (hstays₂.trans hstays₃)
  have hwindow := hwindow₃.trans (hwindow₂.trans hwindow₁)
  rw [← hstays₃.keyOf_previous] at hprevious
  -- What is installed last is the bucket's own key, after that of the bucket before if there is
  -- one.
  have hend {g₄ : Standing} (hstays₄ : g₃.Stays b g₄)
      (hwindow₄ : g₄.own.window = previous.elim g.own.window g.own.window.rotate) :
      (r.installCurrent b current).run.Meets (stayRules r b) (fun o g' =>
        g'.Leads b g.own.window (g.live? b.blobName).isSome (.restored o)) g₄ := by
    have hcurrent₄ : ∀ key ∈ current, g₄.keyOf b = .ok (some key) := by
      rintro key rfl
      exact hstays₄.keyOf hcurrent
    apply (stay_installCurrent r b g₄ hcurrent₄).mono
    rintro (err | b') g₅ ⟨hstays₅, ho⟩
    · -- Nothing was stored for the bucket when it was looked for, so nothing was in the beginning.
      intro hlive
      rw [ho] at hcurrent
      exact absurd hcurrent (Standing.keyOf_ne_none (hstays.isSome_live hlive))
    · obtain ⟨rfl, key, hkey, hwindow₅⟩ := ho
      refine ⟨rfl, previous, key, ?_, hkey, ?_⟩
      · rw [(hstays₄.trans hstays₅).keyOf_previous, hprevious]
      · rw [hwindow₅, hwindow₄, KeyWindow.renew]
  cases previous with
  | none => exact hend (.refl b g₃) hwindow
  | some before =>
      refine (Action.meets_bind (Action.install before)
        (fun _ => r.installCurrent b current) g₃).mpr
        ⟨trivial, fun _ g₄ ha => ?_⟩
      obtain ⟨hans, hstays₄, -⟩ := ha
      refine hend hstays₄ ?_
      rw [(visit_install hans).window, hwindow]
      rfl

/-- A rotation accepts what is stored. -/
theorem stay_rotate : (r.rotate b).run.Meets (stayRules r b) (fun o g' =>
    g'.Leads b g.own.window (g.live? b.blobName).isSome (.rotated o)) g := by
  have hkey : (r.rotate b).run.Meets (stayRules r b)
      (fun o g' => ∀ key, o = .ok key → g'.keyOf b = .ok (some key)) g := by
    rw [Rotater.rotate, Action.meets_bind]
    apply (stay_of_visit (visit_generateFor r b g)).mono
    rintro (err | x) g₁ hx
    · exact fun key h => by contradiction
    obtain ⟨as, -, -, hstored⟩ := hx x rfl
    -- Whether the key is installed or not, the rotation ends with it.
    simp only [Action.meets_bind, Action.meets_currentKey]
    refine ⟨trivial, fun current g₂ ha => ?_⟩
    have hstored₂ := ha.2.1.keyOf hstored
    by_cases hsame : current.any (·.same x.key)
    · simp only [hsame, if_true, Action.meets_pure]
      rintro key ⟨⟩
      exact hstored₂
    · simp only [hsame]
      refine ⟨trivial, fun _ g₃ ha => ?_⟩
      rintro key ⟨⟩
      exact ha.2.1.keyOf hstored₂
  apply ((stay_of_alone (meets_rotate_alone r b)).and hkey).mono
  rintro (err | key) g' ⟨hwindow, hkey⟩
  · exact hwindow
  · exact ⟨hkey key rfl, hwindow⟩

/-- What a restore or a rotation for the bucket comes to. -/
theorem stay_program {e : Errand} (he : e = .restore ∨ e = .rotate b) :
    (e.program r).Meets (stayRules r b)
    (fun o g' => g'.Leads b g.own.window (g.live? b.blobName).isSome o) g := by
  rcases he with rfl | rfl
  · rw [Errand.program, Program.meets_bind]
    exact (stay_restore r b g).mono fun _ _ h => h
  · rw [Errand.program, Program.meets_bind]
    exact (stay_rotate r b g).mono fun _ _ h => h

end Programs

end Keyring.Rotation
