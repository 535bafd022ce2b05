import HttpDns.Detector
import Mathlib.Data.List.DropRight

/-!
# What a detector remembers

A detector is asked again and again, its settings are changed in between and what it remembers is
dropped (`Detector.run`). It remembers the last conclusive result it found in the network since it
was last told to forget, and answers with that, without a probe, exactly while caching is on and
there is one (`detections_kept`). Whether caching is on matters for what is answered, never for what
is remembered.
-/

namespace HttpDns

/-! ## Probes -/

/-- A probe of the network. -/
inductive Probe
  | routeIpv4
  | routeIpv6
  | lookup (domain : String)
  deriving DecidableEq, Repr

/-- The network that is found in the surroundings, with every probe noted. -/
def Surroundings.noted (s : Surroundings) : Network (StateM (List Probe)) where
  routesIpv4 := modifyGet fun ps => (s.routesIpv4, ps ++ [.routeIpv4])
  routesIpv6 := modifyGet fun ps => (s.routesIpv6, ps ++ [.routeIpv6])
  lookup domain := modifyGet fun ps => (s.lookup domain, ps ++ [.lookup domain])

namespace Detector

/-- The probes a detection makes, in order. -/
def probes (d : Detector) (s : Surroundings) : List Probe :=
  ((d.detectOver s.noted).run []).2

/-- Caching is on and there is something to answer with. -/
def Recalls (d : Detector) : Prop :=
  d.useCache = true ∧ d.cached ≠ .unknown

instance (d : Detector) : Decidable d.Recalls :=
  inferInstanceAs (Decidable (_ ∧ _))

/-- What the network says: the families that have a route, or those of the domain if none has. -/
def survey (domain : String) (s : Surroundings) : Stack :=
  if s.routesIpv4 ∨ s.routesIpv6 then .ofFamilies s.routesIpv4 s.routesIpv6
  else .ofAddresses (s.lookup domain)

/-- The probes that takes. -/
def surveyed (domain : String) (s : Surroundings) : List Probe :=
  if s.routesIpv4 ∨ s.routesIpv6 then [.routeIpv4, .routeIpv6]
  else [.routeIpv4, .routeIpv6, .lookup domain]

/-- The detector after it has found a stack. -/
def remember (d : Detector) : Stack → Detector
  | .unknown => d
  | stack => { d with cached := stack }

variable {d : Detector} {m : Type → Type} [Monad m]

theorem detectOver_of_recalls (h : d.Recalls) (n : Network m) :
    d.detectOver n = pure (d.cached, d) :=
  if_pos h

theorem detectOver_of_not_recalls (h : ¬ d.Recalls) (n : Network m) :
    d.detectOver n = probe d.probeDomain n >>= fun stack => pure (stack, d.remember stack) := by
  refine (if_neg h).trans (congrArg (probe d.probeDomain n >>= ·) (funext fun stack => ?_))
  cases stack <;> rfl

theorem probe_network (domain : String) (s : Surroundings) :
    Id.run (probe domain s.network) = survey domain s := by
  obtain ⟨routesIpv4, routesIpv6, lookup⟩ := s
  cases routesIpv4 <;> cases routesIpv6 <;> rfl

theorem probe_noted (domain : String) (s : Surroundings) :
    (probe domain s.noted).run [] = (survey domain s, surveyed domain s) := by
  obtain ⟨routesIpv4, routesIpv6, lookup⟩ := s
  cases routesIpv4 <;> cases routesIpv6 <;> rfl

theorem detect_of_recalls (h : d.Recalls) (s : Surroundings) :
    d.detect s = (d.cached, d) ∧ d.probes s = [] := by
  rw [detect, probes, detectOver_of_recalls h, detectOver_of_recalls h]
  exact ⟨rfl, rfl⟩

theorem detect_of_not_recalls (h : ¬ d.Recalls) (s : Surroundings) :
    let found := survey d.probeDomain s
    d.detect s = (found, d.remember found) ∧ d.probes s = surveyed d.probeDomain s := by
  intro found
  rw [detect, probes, detectOver_of_not_recalls h, detectOver_of_not_recalls h]
  have hfound : Id.run (probe d.probeDomain s.network) = found := probe_network _ s
  have hnoted := probe_noted d.probeDomain s
  constructor
  · exact congrArg (fun stack => (stack, d.remember stack)) hfound
  · exact congrArg Prod.snd hnoted

theorem probes_eq_nil_iff (d : Detector) (s : Surroundings) : d.probes s = [] ↔ d.Recalls := by
  by_cases h : d.Recalls
  · exact iff_of_true (detect_of_recalls h s).2 h
  · rw [(detect_of_not_recalls h s).2, surveyed]
    refine iff_of_false ?_ h
    split <;> exact List.cons_ne_nil _ _

/-! ## Calls -/

/-- A call on a detector. -/
inductive Op
  /-- asks for the stack in these surroundings -/
  | detect (s : Surroundings)
  | setUseCache (on : Bool)
  | setProbeDomain (domain : String)
  | reset

/-- The detector after a call. -/
def apply (d : Detector) : Op → Detector
  | .detect s => (d.detect s).2
  | .setUseCache on => d.setUseCache on
  | .setProbeDomain domain => d.setProbeDomain domain
  | .reset => d.reset

/-- The detector after some calls. -/
def run (d : Detector) (ops : List Op) : Detector :=
  ops.foldl apply d

/-- What comes of a call. -/
inductive Outcome
  /-- a stack that was found by probing the network -/
  | found (stack : Stack)
  /-- a stack that was told without a probe -/
  | recalled (stack : Stack)
  | configured
  | forgotten
  deriving DecidableEq, Repr

def outcome (d : Detector) : Op → Outcome
  | .detect s =>
    if d.probes s = [] then .recalled (d.detect s).1 else .found (d.detect s).1
  | .setUseCache _ | .setProbeDomain _ => .configured
  | .reset => .forgotten

/-- What comes of some calls, one after the other. -/
def outcomes : Detector → List Op → List Outcome
  | _, [] => []
  | d, op :: ops => d.outcome op :: (d.apply op).outcomes ops

/-- The stack that was found, unless the network told none. -/
def Outcome.conclusive? : Outcome → Option Stack
  | .found stack => if stack = .unknown then none else some stack
  | .recalled _ | .configured | .forgotten => none

/-- What came after the detector was last told to forget; everything if it never was. -/
def sinceForgotten (outcomes : List Outcome) : List Outcome :=
  outcomes.rtakeWhile (· ≠ .forgotten)

/-- The last conclusive detection since the detector was last told to forget, unknown if there was
none. -/
def lastConclusive (outcomes : List Outcome) : Stack :=
  ((sinceForgotten outcomes).filterMap Outcome.conclusive?).getLast?.getD .unknown

/-- What is remembered after an outcome. -/
def Outcome.after (before : Stack) : Outcome → Stack
  | .found stack => if stack = .unknown then before else stack
  | .recalled _ | .configured => before
  | .forgotten => .unknown

theorem lastConclusive_snoc (os : List Outcome) (o : Outcome) :
    lastConclusive (os ++ [o]) = o.after (lastConclusive os) := by
  cases o with
  | found stack =>
    by_cases h : stack = .unknown <;>
      simp [lastConclusive, sinceForgotten, Outcome.conclusive?, Outcome.after, h]
  | recalled | configured | forgotten =>
    simp [lastConclusive, sinceForgotten, Outcome.conclusive?, Outcome.after]

theorem cached_remember (d : Detector) (stack : Stack) :
    (d.remember stack).cached = if stack = .unknown then d.cached else stack := by
  cases stack <;> rfl

/-- What one call does to what is remembered. -/
theorem cached_apply (d : Detector) (op : Op) :
    (d.apply op).cached = (d.outcome op).after d.cached := by
  cases op with
  | detect s =>
    rw [apply, outcome]
    by_cases h : d.Recalls
    · obtain ⟨hdetect, hprobes⟩ := detect_of_recalls h s
      rw [if_pos hprobes, hdetect]
      rfl
    · rw [if_neg (mt (probes_eq_nil_iff d s).1 h), (detect_of_not_recalls h s).1]
      exact cached_remember d _
  | setUseCache | setProbeDomain | reset => rfl

theorem run_snoc (d : Detector) (ops : List Op) (op : Op) :
    d.run (ops ++ [op]) = (d.run ops).apply op := by
  rw [run, run, List.foldl_append]
  rfl

theorem outcomes_snoc : ∀ (ops : List Op) (d : Detector) (op : Op),
    d.outcomes (ops ++ [op]) = d.outcomes ops ++ [(d.run ops).outcome op]
  | [], _, _ => rfl
  | first :: ops, d, op => congrArg (d.outcome first :: ·) (outcomes_snoc ops (d.apply first) op)

/-- A detector that starts out with nothing remembers the last conclusive detection. -/
theorem cached_run {d : Detector} (h : d.cached = .unknown) (ops : List Op) :
    (d.run ops).cached = lastConclusive (d.outcomes ops) := by
  induction ops using List.reverseRecOn with
  | nil => exact h
  | append_singleton ops op ih =>
    rw [run_snoc, outcomes_snoc, lastConclusive_snoc, cached_apply, ih]

/-- What is remembered outlasts inconclusive detections, whatever is configured in between. -/
theorem cached_run_of_inconclusive : ∀ (more : List Op) (d : Detector),
    (∀ o ∈ d.outcomes more, o ≠ .forgotten ∧ ∀ stack, o = .found stack → stack = .unknown) →
      (d.run more).cached = d.cached
  | [], _, _ => rfl
  | op :: more, d, h => by
    obtain ⟨hop, hmore⟩ := List.forall_mem_cons.1 h
    have hrest : ((d.apply op).run more).cached = (d.apply op).cached :=
      cached_run_of_inconclusive more (d.apply op) hmore
    have hfirst : (d.outcome op).after d.cached = d.cached := by
      cases ho : d.outcome op with
      | found stack => exact if_pos (hop.2 stack ho)
      | recalled | configured => rfl
      | forgotten => exact absurd ho hop.1
    exact hrest.trans ((cached_apply d op).trans hfirst)

/-! ## Settings -/

def Op.useCache? : Op → Option Bool
  | .setUseCache on => some on
  | .detect _ | .setProbeDomain _ | .reset => none

def Op.probeDomain? : Op → Option String
  | .setProbeDomain domain => some domain
  | .detect _ | .setUseCache _ | .reset => none

theorem settings_apply (d : Detector) (op : Op) :
    (d.apply op).useCache = op.useCache?.getD d.useCache
      ∧ (d.apply op).probeDomain = op.probeDomain?.getD d.probeDomain := by
  cases op with
  | detect s =>
    rw [apply]
    by_cases h : d.Recalls
    · rw [(detect_of_recalls h s).1]
      exact ⟨rfl, rfl⟩
    · rw [(detect_of_not_recalls h s).1]
      cases survey d.probeDomain s <;> exact ⟨rfl, rfl⟩
  | setUseCache | setProbeDomain | reset => exact ⟨rfl, rfl⟩

theorem getD_getLast?_snoc {α β : Type} (f : α → Option β) (l : List α) (x : α) (y : β) :
    ((l ++ [x]).filterMap f).getLast?.getD y
      = (f x).getD ((l.filterMap f).getLast?.getD y) := by
  rw [List.filterMap_append]
  cases h : f x <;> simp [h]

/-- The settings are those that were made last. -/
theorem settings_run (d : Detector) (ops : List Op) :
    (d.run ops).useCache = (ops.filterMap Op.useCache?).getLast?.getD d.useCache
      ∧ (d.run ops).probeDomain
        = (ops.filterMap Op.probeDomain?).getLast?.getD d.probeDomain := by
  induction ops using List.reverseRecOn with
  | nil => exact ⟨rfl, rfl⟩
  | append_singleton ops op ih =>
    obtain ⟨hcache, hdomain⟩ := settings_apply (d.run ops) op
    rw [run_snoc, hcache, hdomain, getD_getLast?_snoc, getD_getLast?_snoc, ih.1, ih.2]
    exact ⟨rfl, rfl⟩

/-! ## Detections -/

theorem families_ofFamilies (ipv4 ipv6 : Bool) :
    (Stack.ofFamilies ipv4 ipv6).hasIpv4 = ipv4 ∧ (Stack.ofFamilies ipv4 ipv6).hasIpv6 = ipv6 := by
  cases ipv4 <;> cases ipv6 <;> exact ⟨rfl, rfl⟩

/-- The network is asked: for the routes, and for the domain only if there is none; the families it
tells are the answer. -/
structure Asks (d : Detector) (s : Surroundings) : Prop where
  probes_eq : d.probes s
    = if s.routesIpv4 ∨ s.routesIpv6 then [.routeIpv4, .routeIpv6]
      else [.routeIpv4, .routeIpv6, .lookup d.probeDomain]
  hasIpv4_eq : (d.detect s).1.hasIpv4
    = if s.routesIpv4 ∨ s.routesIpv6 then s.routesIpv4
      else (s.lookup d.probeDomain).any (·.isIpv4)
  hasIpv6_eq : (d.detect s).1.hasIpv6
    = if s.routesIpv4 ∨ s.routesIpv6 then s.routesIpv6
      else (s.lookup d.probeDomain).any (!·.isIpv4)

theorem asks_of_not_recalls {d : Detector} (h : ¬ d.Recalls) (s : Surroundings) : d.Asks s := by
  obtain ⟨hdetect, hprobes⟩ := detect_of_not_recalls h s
  refine ⟨hprobes, ?_, ?_⟩
  · rw [hdetect, survey]
    split
    · exact (families_ofFamilies _ _).1
    · exact (families_ofFamilies _ _).1
  · rw [hdetect, survey]
    split
    · exact (families_ofFamilies _ _).2
    · exact (families_ofFamilies _ _).2

/-- However a new detector is asked, configured and told to forget: it remembers the last conclusive
detection since it was last told to forget. With that it answers, and probes nothing, exactly while
caching is on and there is one; else it tells what the network says. What it remembers outlasts
inconclusive detections, also while caching is switched off and on. -/
theorem detections_kept (domain : String) (useCache : Bool) (ops : List Op) :
    let start : Detector := { probeDomain := domain, useCache }
    let d := start.run ops
    d.cached = lastConclusive (start.outcomes ops)
      ∧ d.useCache = (ops.filterMap Op.useCache?).getLast?.getD useCache
      ∧ d.probeDomain = (ops.filterMap Op.probeDomain?).getLast?.getD domain
      ∧ (∀ s, (d.probes s = [] ↔ d.useCache = true ∧ d.cached ≠ .unknown)
        ∧ (d.probes s = [] → (d.detect s).1 = d.cached) ∧ (d.probes s ≠ [] → d.Asks s))
      ∧ ∀ more, (∀ o ∈ d.outcomes more,
          o ≠ .forgotten ∧ ∀ stack, o = .found stack → stack = .unknown) →
        (d.run more).cached = d.cached := by
  intro start d
  obtain ⟨hcache, hdomain⟩ := settings_run start ops
  refine ⟨cached_run rfl ops, hcache, hdomain, fun s => ⟨probes_eq_nil_iff d s, fun h => ?_,
    fun h => ?_⟩, fun more => cached_run_of_inconclusive more d⟩
  · rw [(detect_of_recalls ((probes_eq_nil_iff d s).1 h) s).1]
  · exact asks_of_not_recalls (mt (probes_eq_nil_iff d s).2 h) s

/-- What the domain tells is remembered while caching is off, outlasts a detection that finds
nothing, and is the answer once caching is on. -/
theorem detections_kept_uncached :
    let start : Detector := { probeDomain := "a.com", useCache := false }
    let nothing : Surroundings := ⟨false, false, fun _ => []⟩
    let named : Surroundings := ⟨false, false, fun _ => [.ipv6 (.replicate 8 0)]⟩
    let d := start.run [.detect named]
    let later := d.run [.detect nothing, .setUseCache true]
    (d.cached = .ipv6Only ∧ d.useCache = false)
      ∧ d.outcomes [.detect nothing, .setUseCache true] = [.found .unknown, .configured]
      ∧ later.cached = d.cached ∧ later.probes nothing = [] := by
  intro start nothing named d later
  have hoc : d.outcomes [.detect nothing, .setUseCache true] = [.found .unknown, .configured] := by
    decide
  have hkept : later.cached = d.cached := by
    refine (detections_kept "a.com" false [.detect named]).2.2.2.2 _ ?_
    rw [hoc]
    intro o ho
    obtain rfl | rfl : o = .found .unknown ∨ o = .configured := by simpa using ho
    · exact ⟨nofun, fun stack h => (Outcome.found.inj h).symm⟩
    · exact ⟨nofun, nofun⟩
  exact ⟨⟨rfl, rfl⟩, hoc, hkept, rfl⟩

end Detector

end HttpDns
