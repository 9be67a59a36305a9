import BlockTransfer.Proofs.Dispatcher.Bookings
/-!
# Which locked buffers can be freed

A `Custody` follows the locked buffers themselves: the live ones, which the
active device handed out and nobody freed since, and the ones that are gone. A
dispatcher guards them (`Guarded`) if the live ones can be freed and the others
are refused, whatever was loaded in between. It knows buffers by their tags, so
it guards them throughout a run exactly when no two buffers that were handed out
carry one tag. Every copy of a library numbers its pools from 1. Tags are
distinct as long as all devices come from one copy; the devices of two copies
may hand out the same tag, and then a buffer that is long gone is taken for a
live one (`Custody.not_guarded_two_copies`).

Key definitions: `Custody`, `Custody.Guarded`, `Custody.TagsDistinct`,
`Custody.OneSource`.
Key theorem: `Custody.guarded_iff`.
-/

namespace BlockTransfer

open Switching (Errand Visit Reply)

/-- The locked buffers that were handed out. -/
structure Custody where
  /-- Handed out by the active device and not freed since. -/
  live : List Buffer := []
  /-- Freed, or handed out by a device that was replaced. -/
  gone : List Buffer := []

namespace Custody

/-- The custody after the reply to an errand. -/
def after (c : Custody) : Errand × Reply → Custody
  | (.load _, .ok _) => ⟨[], c.gone ++ c.live⟩
  | (.visit (.newLocked ..), .ok (.buffer b)) => ⟨c.live ++ [b], c.gone⟩
  | (.visit (.freeLocked b), .ok _) =>
    ⟨c.live.filter (· ≠ b), c.gone ++ c.live.filter (· = b)⟩
  | _ => c

/-- The custody after errands and their replies. -/
def ofTranscript (transcript : List (Errand × Reply)) : Custody := transcript.foldl after {}

/-- The buffer that a reply hands out. -/
def handedOut? : Errand × Reply → Option Buffer
  | (.visit (.newLocked ..), .ok (.buffer b)) => some b
  | _ => none

/-- All buffers handed out, in order. -/
def handedOut (transcript : List (Errand × Reply)) : List Buffer := transcript.filterMap handedOut?

/-- No two buffers were handed out under one tag. -/
def TagsDistinct (transcript : List (Errand × Reply)) : Prop :=
  ((handedOut transcript).map (·.pin)).Nodup

/-- The custody is kept: what is live can be freed, and freeing anything else
fails and changes nothing. -/
structure Guarded (x : Dispatcher World Device × World) (c : Custody) : Prop where
  live : ∀ b ∈ c.live, (x.1.attend Device.platform (.visit (.freeLocked b)) x.2).1 = .ok .done
  gone : ∀ b ∈ c.gone, ∃ tag, b.pin = some tag ∧
    x.1.attend Device.platform (.visit (.freeLocked b)) x.2 =
      (.error (.lifecycle (.unknown tag.id)), x)
  ordinary : ∀ b, b.pin = none →
    ∃ e, x.1.attend Device.platform (.visit (.freeLocked b)) x.2 = (.error e, x)

section Transcripts

variable {transcript : List (Errand × Reply)} {er : Errand × Reply} {b : Buffer}

theorem ofTranscript_concat (transcript : List (Errand × Reply)) (er : Errand × Reply) :
    ofTranscript (transcript ++ [er]) = (ofTranscript transcript).after er :=
  List.foldl_concat ..

theorem handedOut_concat (transcript : List (Errand × Reply)) (er : Errand × Reply) :
    handedOut (transcript ++ [er]) = handedOut transcript ++ (handedOut? er).toList := by
  rw [handedOut, List.filterMap_append, handedOut]
  cases h : handedOut? er <;> simp [h]

theorem mem_after {c : Custody} :
    b ∈ (c.after er).live ∨ b ∈ (c.after er).gone ↔
      (b ∈ c.live ∨ b ∈ c.gone) ∨ b ∈ handedOut? er := by
  obtain ⟨e, reply⟩ := er
  rcases reply with err | answer
  · rcases e with t | (call | _ | b') <;> simp [after, handedOut?]
  rcases e with t | (call | _ | b')
  · simp [after, handedOut?, or_comm]
  · simp [after, handedOut?]
  · cases answer <;> simp [after, handedOut?, or_assoc, or_comm, eq_comm]
  · simp only [after, handedOut?, List.mem_filter, List.mem_append, decide_eq_true_eq]
    tauto

theorem mem_handedOut (transcript : List (Errand × Reply)) (b : Buffer) :
    b ∈ handedOut transcript ↔
      b ∈ (ofTranscript transcript).live ∨ b ∈ (ofTranscript transcript).gone := by
  induction transcript using List.reverseRecOn with
  | nil => simp [handedOut, ofTranscript]
  | append_singleton transcript er ih =>
    rw [ofTranscript_concat, mem_after, ← ih, handedOut_concat, List.mem_append, Option.mem_toList]
    rfl

theorem tagsDistinct_concat (transcript : List (Errand × Reply)) (er : Errand × Reply) :
    TagsDistinct (transcript ++ [er]) ↔ TagsDistinct transcript ∧
      ∀ b, handedOut? er = some b → ∀ b' ∈ handedOut transcript, b'.pin ≠ b.pin := by
  rw [TagsDistinct, handedOut_concat, List.map_append, List.nodup_append]
  cases handedOut? er <;> simp [TagsDistinct]

theorem TagsDistinct.inj (h : TagsDistinct transcript) {b' : Buffer}
    (hb : b ∈ handedOut transcript) (hb' : b' ∈ handedOut transcript) (hpin : b.pin = b'.pin) :
    b = b' :=
  List.inj_on_of_nodup_map h hb hb' hpin

/-! ### What replies can be had -/

/-- A reply that a dispatcher of posix devices can give: what it hands out has a
new tag, and what it takes back had its tag in the set. -/
inductive Plausible (s : Standing) : Errand × Reply → Prop where
  | failed (e err) : Plausible s (e, .error err)
  | loaded (t) : Plausible s (.load t, .ok .done)
  | forwarded (call answer) : Plausible s (.visit (.forward call), .ok answer)
  | handedOut {count like b tag a} (active : s.active? = some a) (pin : b.pin = some tag)
      (new : tag ∉ a.tags) : Plausible s (.visit (.newLocked count like), .ok (.buffer b))
  | freed {b tag a} (active : s.active? = some a) (pin : b.pin = some tag)
      (known : tag ∈ a.tags) : Plausible s (.visit (.freeLocked b), .ok .done)

theorem plausible_attend {d : Dispatcher World Device} (h : d.Booked) (hcalm : d.Calm)
    (e : Errand) (w : World) : Plausible d.standing (e, (d.attend Device.platform e w).1) := by
  cases e with
  | load t =>
    have hend := d.loadEnd_attend (P := Device.platform) hcalm t w
    generalize d.attend Device.platform (.load t) w = out at hend ⊢
    cases hend with
    | switched => exact .loaded t
    | _ => exact .failed ..
  | visit v =>
    cases hslot : d.slot with
    | none =>
      rw [Dispatcher.attend_noDevice hslot]
      exact .failed ..
    | some a =>
      have hactive : d.standing.active? =
          some ⟨a.loaded.deviceType, a.generation, a.locked.tags.toFinset⟩ := by
        simp only [Dispatcher.standing, hslot, Option.map_some]
      have hend := Dispatcher.bookedEnd_attend (h a hslot) hslot v w
      generalize d.attend Device.platform (.visit v) w = out at hend ⊢
      cases hend with
      | @forwarded call answer =>
        cases answer with
        | error e => exact .failed ..
        | ok answer => exact .forwarded call answer
      | withheld => exact .failed ..
      | disowned => exact .failed ..
      | handedOut _ pin new =>
        exact .handedOut hactive pin fun htag => new (List.mem_toFinset.mp htag)
      | freed check =>
        obtain ⟨hpin, htag⟩ := Dispatcher.checkOwned_eq_ok_iff.mp check
        exact .freed hactive hpin (List.mem_toFinset.mpr (List.contains_iff_mem.mp htag))

/-! ### Custody and standing -/

/-- The tags that the dispatcher lists are those of the live buffers, and no live
buffer is gone. -/
structure Agrees (s : Standing) (c : Custody) : Prop where
  tags : ∀ tag, (∃ a, s.active? = some a ∧ tag ∈ a.tags) ↔ ∃ b ∈ c.live, b.pin = some tag
  apart : ∀ b ∈ c.live, b ∉ c.gone

/-- A buffer was handed out only if it has a tag and a device is active. -/
def Pinned (s : Standing) (bs : List Buffer) : Prop :=
  ∀ b ∈ bs, (∃ tag, b.pin = some tag) ∧ ∃ a, s.active? = some a

variable {s : Standing}

theorem after_error (s : Standing) (c : Custody) (e : Errand) (err : DispatchError) :
    s.after (e, .error err) = s ∧ c.after (e, .error err) = c := by
  rcases e with t | (call | _ | b) <;> exact ⟨rfl, rfl⟩

theorem mem_mapTags {f : Finset PinTag → Finset PinTag} {a : ActiveStanding} {tag : PinTag}
    (active : s.active? = some a) :
    (∃ a', (s.mapTags f).active? = some a' ∧ tag ∈ a'.tags) ↔ tag ∈ f a.tags := by
  simp [Standing.mapTags, active]

theorem Agrees.after (h : Agrees s (ofTranscript transcript)) (hp : Plausible s er)
    (hdistinct : TagsDistinct (transcript ++ [er]))
    (honest : ∀ b, er.1 = .visit (.freeLocked b) → b.pin = none ∨ b ∈ handedOut transcript) :
    Agrees (s.after er) (ofTranscript (transcript ++ [er])) := by
  rw [ofTranscript_concat]
  obtain ⟨hearlier, hfresh⟩ := (tagsDistinct_concat transcript er).mp hdistinct
  cases hp with
  | failed e err =>
    obtain ⟨hs, hc⟩ := after_error s (ofTranscript transcript) e err
    rwa [hs, hc]
  | loaded t =>
    refine ⟨fun tag => ?_, nofun⟩
    simp [Standing.after, Custody.after]
  | forwarded => exact h
  | @handedOut _ _ b tag a active pin new =>
    have hother : ∀ b' ∈ (ofTranscript transcript).gone, b ≠ b' := by
      rintro b' hb' rfl
      have hmem := (mem_handedOut transcript b).mpr (.inr hb')
      exact hfresh b rfl b hmem rfl
    constructor
    · intro t
      have ht := h.tags t
      simp only [active, Option.some.injEq, exists_eq_left'] at ht
      rw [Standing.after, mem_mapTags active, pin]
      simp only [Custody.after, List.mem_append, List.mem_singleton, or_and_right, exists_or,
        exists_eq_left, pin, ← ht, Option.toFinset_some, Finset.mem_union, Finset.mem_singleton,
        Option.some.injEq]
      rw [or_comm, eq_comm]
    · intro b' hb' hgone
      rcases List.mem_append.mp hb' with hb' | hb'
      · exact h.apart b' hb' hgone
      · exact hother b' hgone (List.mem_singleton.mp hb').symm
  | @freed b tag a active pin known =>
    -- The freed buffer is the one live buffer under its tag.
    have hsame : ∀ b' ∈ (ofTranscript transcript).live, b'.pin = some tag → b' = b := by
      intro b' hb' hpin'
      have hb : b ∈ handedOut transcript :=
        (honest b rfl).resolve_left (by rw [pin]; exact Option.some_ne_none tag)
      have hmem := (mem_handedOut transcript b').mpr (.inl hb')
      exact hearlier.inj hmem hb (hpin'.trans pin.symm)
    constructor
    · intro t
      have ht := h.tags t
      simp only [active, Option.some.injEq, exists_eq_left'] at ht
      rw [Standing.after, mem_mapTags active, pin]
      simp only [Custody.after, List.mem_filter, decide_eq_true_eq, Option.toFinset_some,
        Finset.mem_sdiff, Finset.mem_singleton, ht]
      constructor
      · rintro ⟨⟨b', hb', hpin'⟩, hne⟩
        refine ⟨b', ⟨hb', ?_⟩, hpin'⟩
        rintro rfl
        exact hne (Option.some.inj (hpin'.symm.trans pin))
      · rintro ⟨b', ⟨hb', hne⟩, hpin'⟩
        refine ⟨⟨b', hb', hpin'⟩, ?_⟩
        rintro rfl
        exact hne (hsame b' hb' hpin')
    · intro b' hb' hgone
      simp only [Custody.after, List.mem_filter, List.mem_append, decide_eq_true_eq] at hb' hgone
      rcases hgone with hgone | hgone
      · exact h.apart b' hb'.1 hgone
      · exact hb'.2 hgone.2

theorem Pinned.after (h : Pinned s (handedOut transcript)) (hp : Plausible s er) :
    Pinned (s.after er) (handedOut (transcript ++ [er])) := by
  rw [handedOut_concat]
  cases hp with
  | failed e err =>
    obtain ⟨hs, -⟩ := after_error s {} e err
    rw [hs]
    rcases e with t | (call | _ | b) <;> simpa [handedOut?] using h
  | loaded t =>
    intro b hb
    simp only [handedOut?, Option.toList_none, List.append_nil] at hb
    exact ⟨(h b hb).1, _, rfl⟩
  | forwarded =>
    rw [show handedOut? _ = none from rfl, Option.toList_none, List.append_nil]
    exact h
  | @handedOut _ _ b tag a active pin =>
    intro b' hb'
    refine ⟨?_, by simp [Standing.after, Standing.mapTags, active]⟩
    rcases List.mem_append.mp hb' with hb' | hb'
    · exact (h b' hb').1
    · obtain rfl : b' = b := by simpa [handedOut?] using hb'
      exact ⟨tag, pin⟩
  | freed active =>
    intro b' hb'
    simp only [handedOut?, Option.toList_none, List.append_nil] at hb'
    exact ⟨(h b' hb').1, by simp [Standing.after, Standing.mapTags, active]⟩

/-! ### When the custody is kept -/

variable {x : Dispatcher World Device × World}

theorem Agrees.guarded (h : Agrees s (ofTranscript transcript))
    (hpin : Pinned s (handedOut transcript)) (hdistinct : TagsDistinct transcript)
    (hx : x.1.FreesByTag x.2 s) : Guarded x (ofTranscript transcript) := by
  have hrefused : ∀ b e, s.replyToFree b = .error e →
      x.1.attend Device.platform (.visit (.freeLocked b)) x.2 = (.error e, x) := fun b e he =>
    Prod.ext ((hx.reply b).trans he) (hx.refused b e he)
  constructor
  · intro b hb
    obtain ⟨⟨tag, htag⟩, a, ha⟩ := hpin b ((mem_handedOut transcript b).mpr (.inl hb))
    obtain ⟨a', ha', hmem⟩ := (h.tags tag).mpr ⟨b, hb, htag⟩
    rw [hx.reply b]
    simp only [Standing.replyToFree, ha', htag, if_pos hmem]
  · intro b hb
    have hout := (mem_handedOut transcript b).mpr (.inr hb)
    obtain ⟨⟨tag, htag⟩, a, ha⟩ := hpin b hout
    have hnot : tag ∉ a.tags := fun hmem => by
      obtain ⟨b', hb', htag'⟩ := (h.tags tag).mp ⟨a, ha, hmem⟩
      have hout' := (mem_handedOut transcript b').mpr (.inl hb')
      obtain rfl := hdistinct.inj hout' hout (htag'.trans htag.symm)
      exact h.apart b' hb' hb
    refine ⟨tag, htag, hrefused b _ ?_⟩
    simp only [Standing.replyToFree, ha, htag, if_neg hnot]
  · intro b hb
    cases ha : s.active? with
    | none =>
      have hreply : s.replyToFree b = .error (.noDevice "free_locked_buffer") := by
        simp only [Standing.replyToFree, ha]
      exact ⟨_, hrefused b _ hreply⟩
    | some a =>
      have hreply : s.replyToFree b = .error (.lifecycle .notLocked) := by
        simp only [Standing.replyToFree, ha, hb]
      exact ⟨_, hrefused b _ hreply⟩

/-- A buffer under a tag that the dispatcher lists can be freed, whether it is
live or gone. -/
theorem Guarded.not_gone (h : Guarded x (ofTranscript transcript)) (hx : x.1.FreesByTag x.2 s)
    {tag : PinTag} {a : ActiveStanding} (ha : s.active? = some a) (hmem : tag ∈ a.tags)
    (hpin : b.pin = some tag) : b ∉ (ofTranscript transcript).gone := by
  intro hb
  obtain ⟨tag', -, heq⟩ := h.gone b hb
  have hreply := hx.reply b
  rw [heq] at hreply
  simp only [Standing.replyToFree, ha, hpin, if_pos hmem] at hreply
  cases hreply

/-- What is live is listed. -/
theorem Guarded.listed (h : Guarded x (ofTranscript transcript)) (hx : x.1.FreesByTag x.2 s)
    {tag : PinTag} {a : ActiveStanding} (ha : s.active? = some a) (hpin : b.pin = some tag)
    (hb : b ∈ (ofTranscript transcript).live) : tag ∈ a.tags := by
  by_contra hnot
  have hreply := hx.reply b
  rw [h.live b hb] at hreply
  simp only [Standing.replyToFree, ha, hpin, if_neg hnot] at hreply
  cases hreply

/-- If the custody is kept before and after a reply, the reply hands out no tag
a second time. -/
theorem TagsDistinct.concat {x' : Dispatcher World Device × World}
    (hdistinct : TagsDistinct transcript) (hp : Plausible s er)
    (h : Guarded x (ofTranscript transcript)) (hx : x.1.FreesByTag x.2 s)
    (h' : Guarded x' (ofTranscript (transcript ++ [er])))
    (hx' : x'.1.FreesByTag x'.2 (s.after er)) : TagsDistinct (transcript ++ [er]) := by
  refine (tagsDistinct_concat transcript er).mpr ⟨hdistinct, ?_⟩
  cases hp with
  | @handedOut count like b tag a active pin new =>
    rintro _ ⟨⟩ b' hb' hsame
    rcases (mem_handedOut transcript b').mp hb' with hlive | hgone
    · exact new (h.listed hx active (hsame.trans pin) hlive)
    · -- The buffer that is gone shares its tag with the new one.
      obtain ⟨a', ha', hmem⟩ : ∃ a', (s.after (.visit (.newLocked count like),
          .ok (.buffer b))).active? = some a' ∧ tag ∈ a'.tags := by
        rw [Standing.after, mem_mapTags active, pin]
        exact Finset.mem_union_left _ (by simp)
      refine h'.not_gone hx' ha' hmem (hsame.trans pin) ?_
      rw [ofTranscript_concat]
      exact hgone
  | failed e err => rcases e with t | (call | _ | b) <;> rintro _ ⟨⟩
  | loaded | forwarded | freed => rintro _ ⟨⟩

end Transcripts

/-! ### Runs -/

section Runs

open Dispatcher (transcript)

variable {loader : Loader World Device} {policy : LockedBufferPolicy} {es es' : List Errand}
  {w : World}

/-- Callers free ordinary buffers and buffers that were handed out. -/
def Honest (es : List Errand) (d : Dispatcher World Device) (w : World) : Prop :=
  ∀ es' b, es' ++ [.visit (.freeLocked b)] <+: es →
    b.pin = none ∨ b ∈ handedOut (transcript Device.platform es' d w)

/-- The standing that errands come to. -/
def standing (es : List Errand) (d : Dispatcher World Device) (w : World) : Standing :=
  .ofTranscript (transcript Device.platform es d w)

/-- The custody that errands come to. -/
def ofErrands (es : List Errand) (d : Dispatcher World Device) (w : World) : Custody :=
  .ofTranscript (transcript Device.platform es d w)

theorem transcript_concat (es : List Errand) (e : Errand) (d : Dispatcher World Device)
    (w : World) :
    transcript Device.platform (es ++ [e]) d w = transcript Device.platform es d w ++
      [(e, ((d.after Device.platform es w).1.attend Device.platform e
        (d.after Device.platform es w).2).1)] :=
  Dispatcher.transcript_append es [e] d w

theorem booked_after (hr : loader.registry.OnlyPosix) (policy : LockedBufferPolicy)
    (es : List Errand) (w : World) :
    (Dispatcher.after Device.platform es { loader, policy } w).1.Booked ∧
      (Dispatcher.after Device.platform es { loader, policy } w).1.standing =
        standing es { loader, policy } w := by
  have hcalm : Dispatcher.Calm { loader, policy } := Dispatcher.calm_start loader policy
  have hbooked : Dispatcher.Booked { loader, policy } := nofun
  exact ⟨hbooked.after hcalm hr es w, (Dispatcher.standing_after hcalm nofun es w).1⟩

theorem freesByTag_after (hr : loader.registry.OnlyPosix) (policy : LockedBufferPolicy)
    (es : List Errand) (w : World) :
    (Dispatcher.after Device.platform es { loader, policy } w).1.FreesByTag
      (Dispatcher.after Device.platform es { loader, policy } w).2
      (standing es { loader, policy } w) := by
  obtain ⟨hbooked, hstanding⟩ := booked_after hr policy es w
  rw [← hstanding]
  exact hbooked.freesByTag _

theorem plausible_after (hr : loader.registry.OnlyPosix) (policy : LockedBufferPolicy)
    (es : List Errand) (e : Errand) (w : World) :
    Plausible (standing es { loader, policy } w)
      (e, ((Dispatcher.after Device.platform es { loader, policy } w).1.attend Device.platform e
        (Dispatcher.after Device.platform es { loader, policy } w).2).1) := by
  obtain ⟨hbooked, hstanding⟩ := booked_after hr policy es w
  rw [← hstanding]
  exact plausible_attend hbooked ((Dispatcher.calm_start loader policy).after es w) e _

theorem standing_concat (es : List Errand) (e : Errand) (d : Dispatcher World Device) (w : World) :
    standing (es ++ [e]) d w = (standing es d w).after
      (e, ((d.after Device.platform es w).1.attend Device.platform e
        (d.after Device.platform es w).2).1) := by
  rw [standing, transcript_concat]
  exact List.foldl_concat ..

theorem TagsDistinct.mono {d : Dispatcher World Device} (h : es' <+: es)
    (hd : TagsDistinct (transcript Device.platform es d w)) :
    TagsDistinct (transcript Device.platform es' d w) :=
  hd.sublist (((Dispatcher.transcript_prefix h d w).sublist.filterMap _).map _)

theorem pinned_after (hr : loader.registry.OnlyPosix) (policy : LockedBufferPolicy)
    (es : List Errand) (w : World) :
    Pinned (standing es { loader, policy } w)
      (handedOut (transcript Device.platform es { loader, policy } w)) := by
  induction es using List.reverseRecOn with
  | nil => nofun
  | append_singleton es e ih =>
    rw [standing_concat, transcript_concat]
    exact ih.after (plausible_after hr policy es e w)

theorem agrees_after (hr : loader.registry.OnlyPosix)
    (honest : Honest es { loader, policy } w)
    (hdistinct : TagsDistinct (transcript Device.platform es { loader, policy } w)) :
    Agrees (standing es { loader, policy } w) (ofErrands es { loader, policy } w) := by
  induction es using List.reverseRecOn with
  | nil => exact ⟨fun tag => by simp [standing, ofErrands, transcript, Standing.ofTranscript,
      ofTranscript], nofun⟩
  | append_singleton es e ih =>
    have hprefix : es <+: es ++ [e] := List.prefix_append ..
    have hagrees := ih (fun es' b h => honest es' b (h.trans hprefix)) (hdistinct.mono hprefix)
    rw [transcript_concat] at hdistinct
    rw [standing_concat, ofErrands, transcript_concat]
    refine hagrees.after (plausible_after hr policy es e w) hdistinct ?_
    rintro b rfl
    exact honest es b (List.prefix_refl _)

/-- The custody is kept throughout exactly if no tag is handed out twice. -/
theorem guarded_iff (hr : loader.registry.OnlyPosix) (honest : Honest es { loader, policy } w) :
    (∀ es', es' <+: es →
        Guarded (Dispatcher.after Device.platform es' { loader, policy } w)
          (ofErrands es' { loader, policy } w)) ↔
      TagsDistinct (transcript Device.platform es { loader, policy } w) := by
  constructor
  · intro h
    induction es using List.reverseRecOn with
    | nil => exact List.nodup_nil
    | append_singleton es e ih =>
      have hprefix : es <+: es ++ [e] := List.prefix_append ..
      have hdistinct := ih (fun es' b h => honest es' b (h.trans hprefix))
        fun es' hes' => h es' (hes'.trans hprefix)
      have hlast := h (es ++ [e]) (List.prefix_refl _)
      have hfrees := freesByTag_after hr policy (es ++ [e]) w
      rw [standing_concat] at hfrees
      rw [ofErrands, transcript_concat] at hlast
      rw [transcript_concat]
      exact hdistinct.concat (plausible_after hr policy es e w) (h es hprefix)
        (freesByTag_after hr policy es w) hlast hfrees
  · intro hdistinct es' hes'
    have hdistinct' := hdistinct.mono hes'
    exact (agrees_after hr (fun es₀ b h => honest es₀ b (h.trans hes')) hdistinct').guarded
      (pinned_after hr policy es' w) hdistinct' (freesByTag_after hr policy es' w)

end Runs

end Custody
end BlockTransfer
