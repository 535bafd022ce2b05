import HttpDns.Proofs.Ledger

/-!
# Half of what is asked for

A look-up for both families may find one of them alone (`Half`). The query is then sent with the
type of the other one, of which no look-up finds a part, so that a query is always sent with what
look-ups have left of its request's type (`Life.aimed`). As long as it is pending it carries the
half that was found, and nothing else has been found for it (`Life.recalls`, `Recalls.carries`).
-/

namespace HttpDns

/-- The families of addresses. -/
inductive Family
  | ipv4
  | ipv6
  deriving DecidableEq, Repr

namespace Family

/-- The addresses of the family that an answer carries. -/
def told : Family → Answer → List String
  | ipv4, a => a.ips
  | ipv6, a => a.ipsv6

def kept : Family → Resolution → Endpoints
  | ipv4, r => r.ips
  | ipv6, r => r.ipsv6

def other : Family → Family
  | ipv4 => ipv6
  | ipv6 => ipv4

/-- The type that asks for the family alone. -/
def asked : Family → QueryType
  | ipv4 => .a
  | ipv6 => .aaaa

@[simp] theorem other_other (f : Family) : f.other.other = f := by
  cases f <;> rfl

end Family

namespace Resolution

/-- It holds this family and not the other one. -/
structure Half (f : Family) (r : Resolution) : Prop where
  holds : f.kept r ≠ []
  lacks : f.other.kept r = []

theorem satisfies_both_iff (f : Family) {r : Resolution} :
    r.satisfies .both = true ↔ f.kept r ≠ [] ∧ f.other.kept r ≠ [] := by
  cases f <;> simp [satisfies, QueryType.wantsIpv4, QueryType.wantsIpv6, Family.other,
    Family.kept, and_comm]

theorem Half.missing {f : Family} {r : Resolution} (h : r.Half f) :
    r.missing .both = some f.other.asked := by
  obtain ⟨holds, lacks⟩ := h
  unfold Resolution.missing
  cases f with
  | ipv4 =>
    have h4 : r.ips.isEmpty = false := by simpa [Family.kept] using holds
    have h6 : r.ipsv6.isEmpty = true := by simpa [Family.kept, Family.other] using lacks
    simp [QueryType.wantsIpv4, QueryType.wantsIpv6, h4, h6, Family.asked, Family.other]
  | ipv6 =>
    have h6 : r.ipsv6.isEmpty = false := by simpa [Family.kept] using holds
    have h4 : r.ips.isEmpty = true := by simpa [Family.kept, Family.other] using lacks
    simp [QueryType.wantsIpv4, QueryType.wantsIpv6, h4, h6, Family.asked, Family.other]

theorem satisfies_asked_iff {f : Family} {r : Resolution} :
    r.satisfies f.asked = true ↔ f.kept r ≠ [] := by
  cases f <;> simp [satisfies, QueryType.wantsIpv4, QueryType.wantsIpv6, Family.asked, Family.kept]

theorem Half.unique {f f' : Family} {r : Resolution} (h : r.Half f) (h' : r.Half f') : f = f' := by
  by_contra hne
  obtain rfl : f' = f.other := by cases f <;> cases f' <;> simp_all [Family.other]
  exact h'.holds h.lacks

/-- What has something of what a type asks for, but not all of it, has one of both families. -/
theorem half_of_missing {r : Resolution} {type missing : QueryType}
    (hauto : type ≠ .auto) (husable : Cache.usable r type = true)
    (h : r.missing type = some missing) :
    type = .both ∧ ∃ f : Family, r.Half f ∧ missing = f.other.asked := by
  have hlacks : r.satisfies type = false := by
    refine Bool.eq_false_iff.2 fun hsat => ?_
    rw [missing_eq_none_iff.2 hsat] at h
    cases h
  have hhalf : ∀ {f : Family}, r.Half f → type = .both →
      type = .both ∧ ∃ f : Family, r.Half f ∧ missing = f.other.asked := by
    rintro f hf rfl
    exact ⟨rfl, f, hf, Option.some.inj (h.symm.trans hf.missing)⟩
  cases type with
  | auto => exact absurd rfl hauto
  | a | aaaa =>
    simp only [satisfies, QueryType.wantsIpv4, QueryType.wantsIpv6, Bool.not_true,
      Bool.not_false, Bool.false_or, Bool.true_or, Bool.and_true, Bool.true_and] at hlacks
    rw [Cache.usable, hlacks] at husable
    cases husable
  | both =>
    have hsome : r.ips ≠ [] ∨ r.ipsv6 ≠ [] := by
      simpa [Cache.usable, isEmpty, or_iff_not_imp_left] using husable
    rcases hsome with h4 | h6
    · refine hhalf (f := .ipv4) ⟨h4, ?_⟩ rfl
      by_contra h6
      rw [(satisfies_both_iff .ipv4).2 ⟨h4, h6⟩] at hlacks
      cases hlacks
    · refine hhalf (f := .ipv6) ⟨h6, ?_⟩ rfl
      by_contra h4
      rw [(satisfies_both_iff .ipv6).2 ⟨h6, h4⟩] at hlacks
      cases hlacks

end Resolution

theorem Cache.usable_of_lookup {c : Cache} {key : String} {type : QueryType} {now : Nat}
    {r : Resolution} (h : (c.lookup key type now).1 = some r) : usable r type = true := by
  unfold lookup at h
  cases hg : c.entries.get? key with
  | none => simp [hg] at h
  | some e =>
    cases he : e.isExpiredAt now <;> cases hu : usable e type <;> simp [hg, he, hu] at h
    exact h ▸ hu

/-- What look-ups find has something of what they ask for. -/
theorem Follows.usable {c c' : Cache} {es : List Event} (h : Follows c es c') {k : Nat}
    {key : String} {type : QueryType} {p : Resolution}
    (hp : Event.probed k key type (some p) ∈ es) : Cache.usable p type = true := by
  obtain ⟨before, after, rfl⟩ := List.append_of_mem hp
  obtain ⟨c₁, -, hafter⟩ := h.split
  cases hafter with
  | cons now found => exact Cache.usable_of_lookup (found rfl).symm

/-- The answers that look-ups found with a part of what was asked for. -/
def halvesFound (es : List Event) : List Resolution :=
  es.filterMap fun
    | .probed _ _ type (some p) => if p.satisfies type then none else some p
    | _ => none

@[simp] theorem halvesFound_nil : halvesFound [] = [] := rfl

@[simp] theorem halvesFound_append (es fs : List Event) :
    halvesFound (es ++ fs) = halvesFound es ++ halvesFound fs :=
  List.filterMap_append

theorem halvesFound_eq_nil {es : List Event} (h : ∀ k key type p, .probed k key type p ∉ es) :
    halvesFound es = [] := by
  unfold halvesFound
  rw [List.filterMap_eq_nil_iff]
  intro e he
  cases e with
  | probed k key type p => exact absurd he (h k key type p)
  | detected | drew | rotated | switched | sent | sampled | stored | fired | asked => rfl

theorem halvesFound_probed (k : Nat) (key : String) (type : QueryType) (p : Resolution) :
    halvesFound [.probed k key type (some p)] = if p.satisfies type then [] else [p] := by
  cases h : p.satisfies type <;> simp [halvesFound, h]

theorem mem_halvesFound {es : List Event} {k : Nat} {key : String} {type : QueryType}
    {p : Resolution} (h : Event.probed k key type (some p) ∈ es)
    (hlacks : p.satisfies type = false) : p ∈ halvesFound es :=
  List.mem_filterMap.2 ⟨_, h, by simp [hlacks]⟩

namespace Job

/-! ## The rounds of a run -/

/-- It is told of in the rounds of a run, after this has been prepared. -/
def InRounds : Event → Prop
  | .switched .. | .sent .. | .sampled .. | .stored .. | .fired .. => True
  | .detected _ | .drew .. | .probed .. | .rotated .. | .asked _ => False

/-- The query keeps the type of its request and the one that it is sent with. -/
structure SameTypes (q q' : Query) : Prop where
  request : q'.request.queryType = q.request.queryType
  sent : q'.queryType = q.queryType

theorem SameTypes.trans {q q' q'' : Query} (h : SameTypes q q') (h' : SameTypes q' q'') :
    SameTypes q q'' :=
  ⟨h'.request.trans h.request, h'.sent.trans h.sent⟩

theorem SameTypes.composes : Composes fun _ q q' _ => SameTypes q q' :=
  fun _ _ _ _ _ _ => SameTypes.trans

theorem sameTypes_sweep (q : Query) : SameTypes q q.sweep := by
  unfold Query.sweep
  split <;> exact ⟨rfl, rfl⟩

section

variable {σ : Type} {S : Services σ} {settings : JobSettings} {r : Round σ} {i : Nat}
  {q q' : Query} {es : List Event}

theorem Boarded.inRounds {now round : Nat} {seat : Seat}
    (h : Boarded S settings now round i q seat es) : ∀ e ∈ es, InRounds e := by
  cases h <;> simp [InRounds]

theorem Returned.inRounds {traffic : Traffic} {seat : Seat} {l : Landing}
    (h : Returned S traffic i seat l es) : ∀ e ∈ es, InRounds e := by
  cases h with
  | idle => simp
  | landed _ _ hl => cases hl <;> simp [InRounds]

theorem Landing.inRounds {merged : List Resolution} (l : Landing) :
    ∀ e ∈ l.told merged, InRounds e := by
  have hcallback : ∀ results, ∀ e ∈ callback l.index l.query results, InRounds e := by
    intro results
    unfold callback
    split <;> simp [InRounds]
  unfold told
  intro e he
  split at he
  · cases he
  · cases he
  · rcases List.mem_append.1 he with he | he
    · split at he
      · obtain ⟨x, -, rfl⟩ := List.mem_map.1 he
        trivial
      · cases he
    · exact hcallback _ e he

theorem Rounded.inRounds (h : Rounded S settings r i q q' es) : ∀ e ∈ es, InRounds e := by
  obtain ⟨seat, l, es₁, es₂, hb, hl, -, -, rfl⟩ := h
  intro e he
  simp only [List.mem_append] at he
  rcases he with he | he | he
  · exact hb.inRounds e he
  · exact hl.inRounds e he
  · exact l.inRounds e he

theorem Rounded.sameTypes (h : Rounded S settings r i q q' es) : SameTypes q q' := by
  obtain ⟨seat, l, es₁, es₂, hb, hl, -, rfl, -⟩ := h
  obtain ⟨server, attempts, failed, hc⟩ := hb.carry_eq
  obtain ⟨failed', hc'⟩ := hl.carry_eq
  have hafter : SameTypes l.query (l.after (r.merged S settings)) := by
    unfold Landing.after
    split <;> exact ⟨rfl, rfl⟩
  rw [hc', hc] at hafter
  exact ⟨hafter.request, hafter.sent⟩

theorem Round.inRounds (r : Round σ) : ∀ e ∈ r.events S settings, InRounds e := by
  intro e he
  by_cases hquery : ∃ k, e.query? = some k
  · obtain ⟨k, hk⟩ := hquery
    have hmem := mem_about he hk
    rcases (r.passes S settings).about_cases k with hnil | ⟨n, q, q', -, -, hstep⟩
    · rw [hnil] at hmem
      cases hmem
    · exact hstep.inRounds e hmem
  · rw [events, List.mem_append, List.mem_append, r.exchanged_events] at he
    rcases he with he | he | he
    · exact absurd (r.launched_query? S settings e he) hquery
    · rw [List.mem_singleton.1 he]
      trivial
    · exact absurd (r.received_query? S settings e he) hquery

theorem Settles.inRounds {qs : List Query} {w : σ} (h : Settles S settings r qs es w) :
    ∀ e ∈ es, InRounds e := by
  induction h with
  | @ended r hend =>
    intro e he
    obtain ⟨k, hk⟩ := r.launched_query? S settings e he
    have hmem := mem_about he hk
    rcases (r.seats_pass S settings).about_cases k with hnil | ⟨n, q, seat, -, -, hstep⟩
    · rw [hnil] at hmem
      cases hmem
    · exact hstep.inRounds e hmem
  | @again r qs es w _ _ ih =>
    intro e he
    rcases List.mem_append.1 he with he | he
    · exact r.inRounds e he
    · exact ih e he

theorem Settles.sameTypes {qs : List Query} {w : σ} (h : Settles S settings r qs es w) :
    Passes (fun _ q q' _ => SameTypes q q') 0 r.queries qs es := by
  refine h.carries SameTypes.composes (fun hb => ?_) (·.sameTypes)
  obtain ⟨server, attempts, failed, hc⟩ := hb.carry_eq
  rw [hc]
  exact ⟨rfl, rfl⟩

variable {j : Job} {w : σ}

theorem mem_run_of_mem_prepare {e : Event} (h : e ∈ (prepare S 0 none j.queries w).2.1) :
    e ∈ (run S j w).2.1 := by
  have hrun := executes_run S j w
  generalize run S j w = out at hrun ⊢
  cases hrun with
  | refused => exact h
  | settled => exact List.mem_append_left _ h

/-- What the detector tells and which servers are drawn is told as a run is prepared. -/
theorem mem_prepare_of_mem_run {e : Event} (h : e ∈ (run S j w).2.1) (hnot : ¬ InRounds e) :
    e ∈ (prepare S 0 none j.queries w).2.1 := by
  have hrun := executes_run S j w
  generalize run S j w = out at hrun h
  cases hrun with
  | refused => exact h
  | settled _ hs => exact (List.mem_append.1 h).resolve_right fun he => hnot (hs.inRounds e he)

end

/-! ## The keys that are looked up -/

section

variable {i : Nat} {q q' : Query} {es : List Event} {e : Event} {key : String}

theorem key?_callback {results : List Resolution} (he : e ∈ callback i q results) :
    e.key? = none := by
  unfold callback at he
  split at he
  · rw [List.mem_singleton.1 he]
    rfl
  · cases he

theorem Probed.key_eq (h : Probed i q q' es) (he : e ∈ es) (hkey : e.key? = some key) :
    q.usesProbe = true ∧ key = q.ownKey := by
  cases h with
  | skipped => cases he
  | missed huses | half huses =>
    rw [List.mem_singleton.1 he] at hkey
    exact ⟨huses, (Option.some.inj hkey).symm⟩
  | whole huses =>
    refine ⟨huses, ?_⟩
    rcases List.mem_append.1 he with he | he
    · simp only [List.mem_cons, List.not_mem_nil, or_false] at he
      rcases he with rfl | rfl <;> exact (Option.some.inj hkey).symm
    · rw [key?_callback he] at hkey
      cases hkey

theorem Prepared.key_eq (h : Prepared i q q' es) (he : e ∈ es) (hkey : e.key? = some key) :
    q.usesProbe = true ∧ key = q.ownKey := by
  cases h with
  | passed => cases he
  | @readied _ q₁ q₂ _ es fs served typed probed =>
    have hreadies := served.readies typed
    rcases List.mem_append.1 he with he | he
    · cases served with
      | named => cases he
      | drawn =>
        rw [List.mem_singleton.1 he] at hkey
        cases hkey
    · rw [← hreadies.usesProbe, ← hreadies.ownKey]
      exact probed.key_eq he hkey

end

/-! ## The type that is sent -/

/-- What a query of a type is sent with, after look-ups have found these parts of what it asks for:
its own type, or where one family has been found for both of them, the type of the other one. -/
inductive SentWith (own : QueryType) : List Resolution → QueryType → Prop
  | own : SentWith own [] own
  | missing (both : own = .both) {p : Resolution} {f : Family} (half : p.Half f) :
      SentWith own [p] f.other.asked

theorem SentWith.ne_auto {own sent : QueryType} {found : List Resolution}
    (h : SentWith own found sent) (hown : own ≠ .auto) : sent ≠ .auto := by
  cases h with
  | own => exact hown
  | @missing _ _ f => cases f <;> decide

theorem SentWith.of_half {own sent : QueryType} {p : Resolution} {f : Family}
    (h : SentWith own [p] sent) (hp : p.Half f) : own = .both ∧ sent = f.other.asked := by
  cases h with
  | missing both half => exact ⟨both, by rw [half.unique hp]⟩

/-- The query is sent with what the look-ups that are told of have left of its request's type. -/
def Aimed (q : Query) (es : List Event) : Prop :=
  SentWith q.request.queryType (halvesFound es) q.queryType

section

variable {i : Nat} {q q' : Query} {es fs : List Event}

theorem Aimed.sameTypes (h : Aimed q es) (hsame : SameTypes q q') (hfs : halvesFound fs = []) :
    Aimed q' (es ++ fs) := by
  unfold Aimed
  rw [hsame.request, hsame.sent, halvesFound_append, hfs, List.append_nil]
  exact h

theorem Aimed.probed (h : Aimed q es) (hp : Probed i q q' fs)
    (hauto : q.request.queryType ≠ .auto)
    (husable : ∀ {key type p}, .probed i key type (some p) ∈ fs → Cache.usable p type = true) :
    Aimed q' (es ++ fs) := by
  cases hp with
  | skipped => exact h.sameTypes ⟨rfl, rfl⟩ rfl
  | missed => exact h.sameTypes ⟨rfl, rfl⟩ rfl
  | whole _ r hr =>
    refine h.sameTypes ⟨rfl, rfl⟩ ?_
    have hcallback : ∀ results, halvesFound (callback i q results) = [] := by
      intro results
      unfold callback
      split <;> rfl
    have hsat := Resolution.missing_eq_none_iff.1 hr
    rw [halvesFound_append, hcallback, List.append_nil]
    simp [halvesFound, hsat]
  | half _ r type hr =>
    have hlacks : ¬ r.satisfies q.queryType = true := fun hsat => by
      rw [Resolution.missing_eq_none_iff.2 hsat] at hr
      cases hr
    have hr' := husable (List.mem_singleton_self _)
    unfold Aimed at h ⊢
    rw [halvesFound_append, halvesFound_probed, if_neg hlacks]
    generalize halvesFound es = found at h ⊢
    generalize q.queryType = sent at h hr hr'
    cases h with
    | own =>
      obtain ⟨hboth, f, hhalf, rfl⟩ := Resolution.half_of_missing hauto hr' hr
      exact .missing hboth hhalf
    | @missing _ _ f =>
      -- one family alone is found with all that is asked for
      have hone : f.other.asked ≠ .auto ∧ f.other.asked ≠ .both := by cases f <;> decide
      exact absurd (Resolution.half_of_missing hone.1 hr' hr).1 hone.2

/-- What a query asks for once it has a server and a settled type is what look-ups have left of its
request's type, which is settled by then. -/
theorem Aimed.settled {q₁ q₂ : Query} (h : Aimed q es) (served : Served i q q₁ fs)
    (typed : Typed q₁ q₂) : Aimed q₂ (es ++ fs) ∧ q₂.request.queryType ≠ .auto := by
  have hserved : Aimed q₁ (es ++ fs) := by
    cases served <;> exact h.sameTypes ⟨rfl, rfl⟩ rfl
  cases typed with
  | given hne => exact ⟨hserved, hne⟩
  | settled hauto stack =>
    refine ⟨?_, QueryType.ofStack_ne_auto stack⟩
    unfold Aimed at hserved ⊢
    rw [hauto] at hserved
    generalize halvesFound (es ++ fs) = found at hserved ⊢
    generalize q₁.queryType = sent at hserved
    cases hserved with
    | own => exact .own
    | missing hboth => cases hboth

theorem Aimed.prepared (h : Aimed q es) (hp : Prepared i q q' fs)
    (husable : ∀ {key type p}, .probed i key type (some p) ∈ fs → Cache.usable p type = true) :
    Aimed q' (es ++ fs) := by
  cases hp with
  | passed => exact h.sameTypes ⟨rfl, rfl⟩ rfl
  | readied _ served typed probed =>
    obtain ⟨haimed, hauto⟩ := h.settled served typed
    rw [← List.append_assoc]
    exact haimed.probed probed hauto fun he => husable (List.mem_append_right _ he)

theorem Aimed.unprepared (h : Aimed q es) (hp : Unprepared i q q' fs) : Aimed q' (es ++ fs) := by
  cases hp <;> exact h.sameTypes ⟨rfl, rfl⟩ rfl

/-- What is told of a query as it becomes another one leaves it aimed. -/
def KeepsAim (_ : Nat) (q q' : Query) (fs : List Event) : Prop :=
  ∀ {es}, Aimed q es → Aimed q' (es ++ fs)

theorem KeepsAim.composes : Composes KeepsAim := fun _ _ _ _ es fs h h' es₀ haimed => by
  rw [← List.append_assoc]
  exact h' (h haimed)

end

section

variable {τ : Type} {S : Services τ} {settings : JobSettings}

theorem prepare_aimed (S : Services τ) (qs : List Query) (w : Cache × τ) :
    Passes KeepsAim 0 qs (prepare S.withCache 0 none qs w).1.1
      (prepare S.withCache 0 none qs w).2.1 := by
  have hp := prepare_passes S.withCache 0 none qs w
  have hfollows := prepare_follows S 0 none qs w
  refine ⟨hp.length_eq, fun hq hq' _ h => ?_, hp.others⟩
  rcases hp.each hq hq' with hprepared | ⟨-, hunprepared⟩
  · exact h.prepared hprepared fun he => hfollows.usable (mem_of_mem_about he)
  · exact h.unprepared hunprepared

theorem Settles.aimed {σ : Type} {S : Services σ} {r : Round σ} {qs : List Query}
    {es : List Event} {w : σ} (h : Settles S settings r qs es w) :
    Passes KeepsAim 0 r.queries qs es := by
  refine ⟨h.sameTypes.length_eq, fun hq hq' _ haimed => ?_, h.sameTypes.others⟩
  refine haimed.sameTypes (h.sameTypes.each hq hq') (halvesFound_eq_nil fun k key type p he => ?_)
  exact h.inRounds _ (mem_of_mem_about he)

theorem run_aimed (S : Services τ) (j : Job) (w : Cache × τ) :
    Passes KeepsAim 0 j.queries (run S.withCache j w).1.1.queries (run S.withCache j w).2.1 :=
  run_carries KeepsAim.composes (prepare_aimed S j.queries w) (·.aimed)
    fun _ q _ haimed => haimed.sameTypes (sameTypes_sweep q) rfl

variable {rs : List (Request × Bool)} {j : Job} {es : List Event} {w : Cache × τ}

/-- Whatever has happened to a job, its queries are sent with what look-ups have left of the types
of their requests. -/
theorem Life.aimed (life : Life S.withCache settings rs j es w) :
    Passes (fun _ _ q gs => Aimed q gs) 0 rs j.queries es :=
  life.carries (fun _ _ _ _ => .own) (run_aimed S) fun haimed hr => hr haimed

end

/-! ## What a query carries -/

/-- The look-ups for a query were made under its own key. As long as it is pending, what they have
found is no more than a part of what they asked for, and the query carries the last such part. -/
structure Recalls (i : Nat) (q : Query) (es : List Event) : Prop where
  asked : ∀ {key type found}, .probed i key type found ∈ es → q.usesProbe = true ∧ key = q.ownKey
  parts : q.state = .pending → ∀ {key type p}, .probed i key type (some p) ∈ es →
    p.satisfies type = false
  hit : q.state = .pending → q.partialHit = (halvesFound es).getLast?

section

variable {i : Nat} {q q' : Query} {es fs : List Event}

theorem Recalls.quiet (h : Recalls i q es) (hstems : q'.Stems q.request)
    (hfs : ∀ k key type found, .probed k key type found ∉ fs)
    (hkept : q'.state = .pending → q.state = .pending ∧ q'.partialHit = q.partialHit) :
    Recalls i q' (es ++ fs) where
  asked he := by
    rw [hstems.usesProbe_eq, hstems.ownKey_eq]
    exact h.asked ((List.mem_append.1 he).resolve_right (hfs _ _ _ _))
  parts hq' _ _ _ he :=
    h.parts (hkept hq').1 ((List.mem_append.1 he).resolve_right (hfs _ _ _ _))
  hit hq' := by
    rw [halvesFound_append, halvesFound_eq_nil hfs, List.append_nil, (hkept hq').2]
    exact h.hit (hkept hq').1

theorem Recalls.probed (h : Recalls i q es) (hq : q.state = .pending) (hp : Probed i q q' fs) :
    Recalls i q' (es ++ fs) := by
  have hsame : q'.usesProbe = q.usesProbe ∧ q'.ownKey = q.ownKey := by
    cases hp <;> exact ⟨rfl, rfl⟩
  have hasked : ∀ {key type found}, .probed i key type found ∈ es ++ fs →
      q'.usesProbe = true ∧ key = q'.ownKey := by
    intro key type found he
    rw [hsame.1, hsame.2]
    rcases List.mem_append.1 he with he | he
    · exact h.asked he
    · exact hp.key_eq he rfl
  cases hp with
  | skipped => rwa [List.append_nil]
  | missed =>
    refine ⟨hasked, fun _ key type p he => ?_, fun _ => ?_⟩
    · exact h.parts hq (by simpa using he)
    · rw [halvesFound_append]
      exact (h.hit hq).trans (congrArg _ (List.append_nil _).symm)
  | whole => exact ⟨hasked, (nomatch ·), (nomatch ·)⟩
  | half _ r type hr =>
    have hlacks : r.satisfies q.queryType = false := by
      refine Bool.eq_false_iff.2 fun hsat => ?_
      rw [Resolution.missing_eq_none_iff.2 hsat] at hr
      cases hr
    refine ⟨hasked, fun _ key type p he => ?_, fun _ => ?_⟩
    · rcases List.mem_append.1 he with he | he
      · exact h.parts hq he
      · cases List.mem_singleton.1 he
        exact hlacks
    · rw [halvesFound_append, halvesFound_probed, hlacks]
      exact List.getLast?_concat.symm

theorem Recalls.prepared (h : Recalls i q es) (hp : Prepared i q q' fs) :
    Recalls i q' (es ++ fs) := by
  cases hp with
  | passed => rwa [List.append_nil]
  | @readied hpend q₁ q₂ _ gs hs served typed probed =>
    have hserved : Recalls i q₁ (es ++ gs) := by
      cases served <;>
        exact h.quiet ⟨_, _, rfl⟩ (by simp) fun hq => ⟨hq, rfl⟩
    have htyped : Recalls i q₂ (es ++ gs) := by
      rw [← List.append_nil (es ++ gs)]
      cases typed <;> exact hserved.quiet ⟨_, _, rfl⟩ (by simp) fun hq => ⟨hq, rfl⟩
    rw [← List.append_assoc]
    exact htyped.probed ((served.readies typed).state.trans hpend) probed

theorem Recalls.unprepared (h : Recalls i q es) (hp : Unprepared i q q' fs) :
    Recalls i q' (es ++ fs) := by
  cases hp <;> exact h.quiet ⟨_, _, rfl⟩ (by simp) fun hq => ⟨hq, rfl⟩

/-- What is told of a query as it becomes another one leaves it with what it recalls. -/
def KeepsRecall (i : Nat) (q q' : Query) (fs : List Event) : Prop :=
  ∀ {es}, Recalls i q es → Recalls i q' (es ++ fs)

theorem KeepsRecall.composes : Composes KeepsRecall := fun _ _ _ _ es fs h h' es₀ hrecalls => by
  rw [← List.append_assoc]
  exact h' (h hrecalls)

end

section

variable {σ : Type} {S : Services σ} {settings : JobSettings}

theorem prepare_recalls (S : Services σ) (qs : List Query) (w : σ) :
    Passes KeepsRecall 0 qs (prepare S 0 none qs w).1.1 (prepare S 0 none qs w).2.1 :=
  (prepare_passes S 0 none qs w).mono fun _ _ _ _ hp _ h => by
    rcases hp with hp | ⟨-, hp⟩
    · exact h.prepared hp
    · exact h.unprepared hp

theorem Settles.recalls {r : Round σ} {qs : List Query} {es : List Event} {w : σ}
    (h : Settles S settings r qs es w) : Passes KeepsRecall 0 r.queries qs es := by
  refine ⟨h.passes.length_eq, fun {k q q'} hq hq' es₀ hrecalls => ?_, h.passes.others⟩
  have hfares := h.fares hq hq'
  rw [← Nat.zero_add k] at hfares
  refine hrecalls.quiet (h.derived.each hq hq').stems
    (fun k key type found he => h.inRounds _ (mem_of_mem_about he)) fun hpend => ?_
  cases hfares with
  | carried server attempts failed hquery =>
    rw [hquery] at hpend ⊢
    exact ⟨hpend, rfl⟩
  | answered _ _ _ _ _ _ hosts hanswered =>
    rw [hanswered.state] at hpend
    cases hpend

theorem run_recalls (S : Services σ) (j : Job) (w : σ) :
    Passes KeepsRecall 0 j.queries (run S j w).1.1.queries (run S j w).2.1 := by
  refine run_carries KeepsRecall.composes (prepare_recalls S j.queries w) (·.recalls) ?_
  intro i q es h
  unfold Query.sweep
  split
  · exact h.quiet (.refl q) (by simp) fun hq => nomatch hq
  · exact h.quiet (.refl q) (by simp) fun hq => ⟨hq, rfl⟩

variable {rs : List (Request × Bool)} {j : Job} {es : List Event} {w : σ}

/-- Whatever has happened to a job, its pending queries carry what look-ups have found for them. -/
theorem Life.recalls (life : Life S settings rs j es w) :
    Passes (fun i _ q gs => Recalls i q gs) 0 rs j.queries es :=
  life.carries (fun _ _ _ _ => ⟨by simp, by simp, fun _ => rfl⟩) (run_recalls S)
    fun h hr => hr h

end

/-- A pending query carries what was found for it, and nothing else was. -/
theorem Recalls.carries {i : Nat} {q : Query} {es : List Event} (h : Recalls i q es)
    (haimed : Aimed q es) (hpend : q.state = .pending) {key : String} {type : QueryType}
    {p : Resolution} (he : .probed i key type (some p) ∈ es) :
    q.partialHit = some p ∧ halvesFound es = [p] := by
  have hmem := mem_halvesFound he (h.parts hpend he)
  have hhit := h.hit hpend
  unfold Aimed at haimed
  generalize halvesFound es = found at haimed hmem hhit
  generalize q.request.queryType = own, q.queryType = sent at haimed
  cases haimed with
  | own => cases hmem
  | missing =>
    obtain rfl := List.mem_singleton.1 hmem
    exact ⟨hhit, rfl⟩

section

variable {τ : Type} {S : Services τ} {settings : JobSettings} {rs : List (Request × Bool)} {j : Job}
  {es : List Event} {w : Cache × τ} {r : Round (Cache × τ)}

/-- A pending query in a round of a run carries what was found for it, as the run was prepared or in
an earlier one. -/
theorem InRun.carries (hr : InRun S.withCache j w r) (life : Life S.withCache settings rs j es w)
    {k : Nat} {q : Query} (hq : r.queries[k]? = some q) (hpend : q.state = .pending) {key : String}
    {type : QueryType} {p : Resolution}
    (he : .probed k key type (some p) ∈ es ++ (run S.withCache j w).2.1) :
    q.partialHit = some p := by
  obtain ⟨-, -, hrecalls⟩ := hr.keeps life.recalls (prepare_recalls S.withCache j.queries w)
    (fun h hr => hr h) (fun _ _ _ h => ⟨h.asked, h.parts, h.hit⟩) hq hpend
  obtain ⟨-, -, haimed⟩ := hr.keeps life.aimed (prepare_aimed S j.queries w)
    (fun h hr => hr h) (fun _ _ _ h => h) hq hpend
  have hown : .probed k key type (some p)
      ∈ about k es ++ about k (prepare S.withCache 0 none j.queries w).2.1 := by
    rcases List.mem_append.1 he with he | he
    · exact List.mem_append_left _ (mem_about he rfl)
    · exact List.mem_append_right _ (prepared_of_probed he).1
  exact (hrecalls.carries haimed hpend hown).1

end

end Job

end HttpDns
