import PathTemplate.Proofs.Bindings
import PathTemplate.Proofs.Nesting
import PathTemplate.Session

/-!
Sessions. What every step keeps holds behind all runs (`after_invariant`): the template is one that
some text writes, and a rest that is kept is a normal path (`sound_after`). A step of which nothing
comes leaves the session as it was (`step_of_declines`), and of the steps just the matches log an
outcome (`countP_isOutcome_run`). Descending through a list of templates is one match with all of
them joined (`last_after_descents`).
-/

namespace PathTemplate

/-- The rest that a match captures is a normal path. -/
theorem Template.isNormal_rest {t : Template} {path rest : String} {seed : Params} {m : Match}
    (hm : t.resolve path seed = some m) (hrest : m.rest = some rest) :
    Path.isNormal rest = true := by
  obtain ⟨k, -, rfl⟩ := resolve_eq_some_iff.mp hm
  rw [Findings.rest_toMatch, rest_findingsAt_eq_some_iff] at hrest
  obtain ⟨-, rfl⟩ := hrest
  exact Path.isNormal_ofTokens fun _ => Path.isToken_of_mem_drop_tokens

/-! ## Outcomes in the log -/

/-- The event reports the outcome of a match. -/
def Event.isOutcome (e : Event) : Bool := e.message = "route match"

theorem Escape.isOutcome_of_mem_log {d : Decoding} {token : String} {e : Event}
    (h : e ∈ log d token) : e.isOutcome = false := by
  unfold log at h
  cases hread : read d token with
  | ok text => simp [hread] at h
  | error cause =>
    rw [hread, List.mem_singleton] at h
    subst h
    cases cause <;> rfl

/-- The walk itself reports no outcome. -/
theorem isOutcome_of_mem_walkLog {o : Options} {index : Nat} {segments : List Segment}
    {left : List String} {e : Event} (h : e ∈ walkLog o index segments left) :
    e.isOutcome = false := by
  induction segments generalizing index left with
  | nil =>
    cases left with
    | nil => cases h
    | cons token left =>
      rw [walkLog, List.mem_singleton] at h
      rw [h]
      rfl
  | cons s segments ih =>
    unfold walkLog at h
    cases hmeet : s.meet o left with
    | pass =>
      rw [hmeet] at h
      exact ih h
    | bind name value =>
      rw [hmeet, List.mem_append] at h
      exact h.elim Escape.isOutcome_of_mem_log ih
    | bindRest name value =>
      rw [hmeet, List.mem_flatMap] at h
      obtain ⟨token, -, h⟩ := h
      exact Escape.isOutcome_of_mem_log h
    | capture rest =>
      rw [hmeet] at h
      cases h
    | refuse cause =>
      rw [hmeet, List.mem_singleton] at h
      rw [h]
      cases cause <;> rfl

theorem Template.countP_log (t : Template) (path : String) (seed : Params) :
    (t.log path seed).countP Event.isOutcome = 1 := by
  have hwalk : (walkLog t.options 0 t.segments (Path.tokens path)).countP Event.isOutcome = 0 :=
    List.countP_eq_zero.mpr fun e he => by simp [isOutcome_of_mem_walkLog he]
  rw [log, List.countP_append, hwalk]
  rfl

/-! ## Answers -/

/-- Nothing came of the step: a fault, no rest, or a no. -/
def Answer.Declines : Answer → Prop
  | .fault _ | .noRest | .truth false => True
  | _ => False

def Answer.isOutcome : Answer → Bool
  | .outcome _ => true
  | _ => false

namespace Session

variable {s : Session}

/-! ## Runs -/

theorem after_append (s : Session) (front back : List Step) :
    s.after (front ++ back) = (s.after front).after back := List.foldl_append

/-- What a step leaves behind depends on the steps before it only by the session that they lead
to. -/
theorem getElem?_run (s : Session) (steps : List Step) (i : Nat) :
    (s.run steps)[i]? = steps[i]?.map (s.after (steps.take i)).step := by
  induction steps generalizing s i with
  | nil => rfl
  | cons step steps ih =>
    cases i with
    | zero => rfl
    | succ i => exact ih (s.step step).1 i

theorem after_invariant {P : Session → Prop} (hstep : ∀ s step, P s → P (s.step step).1)
    (hs : P s) (steps : List Step) : P (s.after steps) := by
  induction steps generalizing s with
  | nil => exact hs
  | cons step steps ih => exact ih (hstep s step hs)

/-! ## What a step keeps -/

/-- The template is one that some text writes, and a rest that is kept is a normal path. -/
structure Sound (s : Session) : Prop where
  template : ∃ text o, s.template = { Template.ofString text with options := o }
  rest : ∀ m ∈ s.last, ∀ rest ∈ m.rest, Path.isNormal rest = true

theorem sound_start : Sound {} := ⟨⟨"", {}, rfl⟩, by simp⟩

theorem Sound.resolve (hs : s.Sound) (t : Template) (path : String) (seed : Params) :
    (s.resolve t path seed).1.Sound :=
  ⟨hs.template, fun _ hm _ hrest => Template.isNormal_rest hm hrest⟩

theorem Sound.setOptions (hs : s.Sound) (o : Options) :
    Sound { s with template.options := o } := by
  obtain ⟨text, o', ht⟩ := hs.template
  exact ⟨⟨text, o, by rw [ht]⟩, hs.rest⟩

theorem Sound.step (hs : s.Sound) (step : Step) : (s.step step).1.Sound := by
  cases step with
  | parse text => exact ⟨⟨text, {}, rfl⟩, hs.rest⟩
  | options o => exact hs.setOptions o
  | optionsText text =>
    cases hread : Options.ofText text with
    | ok o => simpa only [Session.step, hread] using hs.setOptions o
    | error cause => simpa only [Session.step, hread] using hs
  | seed params => exact ⟨hs.template, hs.rest⟩
  | resolve path => exact hs.resolve s.template path {}
  | resolveSeeded path => exact hs.resolve s.template path s.seed
  | carry =>
    cases hlast : s.last with
    | none => simpa only [Session.step, hlast] using hs
    | some m => exact ⟨by simpa only [Session.step, hlast] using hs.template,
        by simpa only [Session.step, hlast] using hs.rest⟩
  | descend text =>
    cases hrest : s.last.bind Match.rest with
    | none => simpa only [Session.step, hrest] using hs
    | some rest => simpa only [Session.step, hrest] using hs.resolve _ rest s.seed
  | rerender => exact ⟨⟨s.template.render, {}, rfl⟩, hs.rest⟩
  | get _ | rest | equals _ | lastEquals _ => exact hs

theorem sound_after (steps : List Step) : (Session.after {} steps).Sound :=
  after_invariant (fun _ step hs => hs.step step) sound_start steps

/-- **Steps that decline.** The session stays as it was, and nothing is logged. -/
theorem step_of_declines {step : Step} (h : (s.step step).2.1.Declines) :
    (s.step step).1 = s ∧ (s.step step).2.2 = [] := by
  cases step with
  | optionsText text =>
    cases hread : Options.ofText text with
    | ok o => simp [Session.step, hread, Answer.Declines] at h
    | error cause => simp [Session.step, hread]
  | carry =>
    cases hlast : s.last with
    | none => simp [Session.step, hlast]
    | some m => simp [Session.step, hlast, Answer.Declines] at h
  | descend text =>
    cases hrest : s.last.bind Match.rest with
    | none => simp [Session.step, hrest]
    | some rest => simp [Session.step, hrest, Session.resolve, Answer.Declines] at h
  | get _ | rest | equals _ | lastEquals _ => exact ⟨rfl, rfl⟩
  | parse _ | options _ | seed _ | resolve _ | resolveSeeded _ | rerender => exact absurd h id

/-- Writing the template out and reading it again only puts the options back. -/
theorem step_rerender (hs : s.Sound) :
    s.step .rerender =
      ({ s with template.options := {} },
        .rerendered (s.template.options = {}) { s.template with options := {} }, []) := by
  obtain ⟨text, o, ht⟩ := hs.template
  have hread : Template.ofString s.template.render = { s.template with options := {} } := by
    have hrender : s.template.render = (Template.ofString text).render := by
      rw [ht]
      rfl
    rw [hrender, ht, Template.ofString_render]
    rfl
  have hsame : { s.template with options := {} } = s.template ↔ s.template.options = {} := by
    rw [ht]
    constructor
    · intro h
      exact (congrArg Template.options h).symm
    · rintro rfl
      rfl
  simp only [Session.step, hread, hsame]

/-! ## Matches and their reports -/

theorem countP_step (s : Session) (step : Step) :
    (s.step step).2.2.countP Event.isOutcome =
      if (s.step step).2.1.isOutcome then 1 else 0 := by
  cases step with
  | resolve path => exact s.template.countP_log path {}
  | resolveSeeded path => exact s.template.countP_log path s.seed
  | optionsText text =>
    cases hread : Options.ofText text <;> simp [Session.step, hread, Answer.isOutcome]
  | carry => cases hlast : s.last <;> simp [Session.step, hlast, Answer.isOutcome]
  | descend text =>
    cases hrest : s.last.bind Match.rest with
    | none => simp [Session.step, hrest, Answer.isOutcome]
    | some rest => simp [Session.step, hrest, Session.resolve, Answer.isOutcome,
      Template.countP_log]
  | parse _ | options _ | seed _ | get _ | rest | rerender | equals _ | lastEquals _ => rfl

/-- **One report for each match.** A run logs as many outcomes as it makes matches. -/
theorem countP_isOutcome_run (s : Session) (steps : List Step) :
    ((s.run steps).flatMap (·.2.2)).countP Event.isOutcome =
      (s.run steps).countP (·.2.1.isOutcome) := by
  induction steps generalizing s with
  | nil => rfl
  | cons step steps ih =>
    rw [run, List.flatMap_cons, List.countP_append, countP_step, ih, List.countP_cons,
      Nat.add_comm]

/-! ## Descending -/

/-- Descends through the templates one after the other, with a wildcard behind each. -/
def descents (texts : List String) : List Step :=
  texts.flatMap fun text => [.carry, .descend (text ++ "/*")]

theorem after_descend_of_rest {m : Match} {rest : String} (hm : s.last = some m)
    (hrest : m.rest = some rest) (text : String) :
    s.after [.carry, .descend text] =
      { s with seed := m.params, last := matchPath rest text m.params s.template.options } := by
  simp [after, Session.step, Session.resolve, hm, hrest, matchPath]

theorem last_after_descend_of_no_rest (h : s.last.bind Match.rest = none) (text : String) :
    (s.after [.carry, .descend text]).last = s.last := by
  cases hm : s.last with
  | none => simp [after, Session.step, hm]
  | some m =>
    have hrest : m.rest = none := by simpa [hm] using h
    simp [after, Session.step, hm, hrest]

theorem last_after_descents_of_no_rest (h : s.last.bind Match.rest = none) (texts : List String) :
    (s.after (descents texts)).last = s.last := by
  induction texts generalizing s with
  | nil => rfl
  | cons text texts ih =>
    have hlast := last_after_descend_of_no_rest h (text ++ "/*")
    rw [descents, List.flatMap_cons, after_append, ← hlast]
    exact ih (by rw [hlast, h])

/-- To carry on from a captured rest is to match both templates at once. -/
theorem last_after_descend {path a : String} {seed : Params}
    (ha : ∀ s ∈ (Template.ofString a).segments, s.takesOne = true)
    (hlast : s.last = matchPath path (a ++ "/*") seed s.template.options)
    (hrest : ∃ rest, s.last.bind Match.rest = some rest) (text : String) :
    (s.after [.carry, .descend text]).last =
        matchPath path (a ++ "/" ++ text) seed s.template.options ∧
      (s.after [.carry, .descend text]).template = s.template := by
  obtain ⟨rest, hrest⟩ := hrest
  obtain ⟨m, hm, hrest⟩ := Option.bind_eq_some_iff.mp hrest
  rw [after_descend_of_rest hm hrest, ← matchPath_rest ha (hlast.symm.trans hm), hrest,
    Option.getD_some]
  exact ⟨rfl, rfl⟩

/-- **Descending.** If a rest is left behind all descents, they come to one match of the path with
all templates joined. -/
theorem last_after_descents {path a : String} {seed : Params} {texts : List String}
    (ha : ∀ s ∈ (Template.ofString a).segments, s.takesOne = true)
    (htexts : ∀ text ∈ texts, ∀ s ∈ (Template.ofString text).segments, s.takesOne = true)
    (hlast : s.last = matchPath path (a ++ "/*") seed s.template.options)
    (hend : ((s.after (descents texts)).last.bind Match.rest).isSome) :
    (s.after (descents texts)).last =
      matchPath path (texts.foldl (fun a text => a ++ "/" ++ text) a ++ "/*") seed
        s.template.options := by
  induction texts generalizing s a with
  | nil => exact hlast
  | cons text texts ih =>
    -- Without a rest there is none behind later descents either.
    have hrest : ∃ rest, s.last.bind Match.rest = some rest := by
      rw [← Option.ne_none_iff_exists']
      intro hnone
      rw [last_after_descents_of_no_rest hnone, hnone] at hend
      cases hend
    obtain ⟨hfirst, htemplate⟩ := last_after_descend ha hlast hrest (text ++ "/*")
    rw [← String.append_assoc] at hfirst
    have hjoined : ∀ s ∈ (Template.ofString (a ++ "/" ++ text)).segments, s.takesOne = true := by
      rw [segments_append_slash]
      exact List.forall_mem_append.mpr ⟨ha, htexts text List.mem_cons_self⟩
    rw [descents, List.flatMap_cons, after_append] at hend ⊢
    rw [List.foldl_cons, ← htemplate]
    exact ih hjoined (fun text h => htexts text (List.mem_cons_of_mem _ h))
      (by rw [htemplate, hfirst]) hend

example :
    (Session.after {} ([.parse "/shop/*", .resolve "/shop/a/b%20c/d"]
        ++ descents [":kind", ":item"])).last =
      matchPath "/shop/a/b%20c/d" "/shop/:kind/:item/*" {} {} := by decide +kernel

end Session
end PathTemplate
