import HttpDns.Json.Record
import Mathlib.Data.List.Nodup
import Mathlib.Data.List.Perm.Basic

/-!
# What a record is read from

A record has a layout: the members it knows, each with a default and with what it may hold. A tree
fits the layout if it gives every member at most once and in its form (`Layout.Fits`). What is read
of a record are its members by name, so neither their order nor members it does not know play a
part, and one that is missing may as well be given as its default (`Layout.Step.agree`).
-/

namespace HttpDns.Json

/-- A member that a record knows: what stands for it where it is missing, and what it may hold. -/
structure Slot where
  name : String
  default : Tree
  Fits : Tree → Prop

abbrev Layout := List Slot

def Layout.names (r : Layout) : List String :=
  r.map (·.name)

def Named (name : String) (m : List Piece × Tree) : Prop :=
  readText m.1 = some name

/-- Every member has a name, known or not. -/
def Legible (ms : List (List Piece × Tree)) : Prop :=
  ∀ m ∈ ms, ∃ name, Named name m

/-- A tree that is a record of the layout. -/
inductive Layout.Fits (r : Layout) : Tree → Prop
  | object {ms : List (List Piece × Tree)} (legible : Legible ms)
      (once : ∀ s ∈ r, ms.Pairwise fun m m' => ¬ (Named s.name m ∧ Named s.name m'))
      (typed : ∀ s ∈ r, ∀ m ∈ ms, Named s.name m → s.Fits m.2) : Fits r (.object ms)
  | list {items : List Tree} (short : items.length ≤ r.length)
      (typed : ∀ p ∈ r.zip items, p.1.Fits p.2) : Fits r (.list items)

/-- A change of an object that leaves the record alone. -/
inductive Layout.Step (r : Layout) : Tree → Tree → Prop
  | permuted {ms ms' : List (List Piece × Tree)} (h : ms.Perm ms') :
      Step r (.object ms) (.object ms')
  | unknown {front back : List (List Piece × Tree)} {m : List Piece × Tree} {name : String}
      (hm : Named name m) (hr : name ∉ r.names) :
      Step r (.object (front ++ back)) (.object (front ++ m :: back))
  | missing {front back : List (List Piece × Tree)} {key : List Piece} {s : Slot} (hs : s ∈ r)
      (hkey : readText key = some s.name) (hm : ∀ m ∈ front ++ back, ¬ Named s.name m) :
      Step r (.object (front ++ back)) (.object (front ++ (key, s.default) :: back))

/-! ## Members by name -/

theorem Named.unique {name name' : String} {m : List Piece × Tree} (h : Named name m)
    (h' : Named name' m) : name = name' :=
  Option.some.inj (h.symm.trans h')

theorem legible_cons {m : List Piece × Tree} {ms : List (List Piece × Tree)} :
    Legible (m :: ms) ↔ (∃ name, Named name m) ∧ Legible ms :=
  List.forall_mem_cons

/-- A member with its key read as a name. -/
def titled (m : List Piece × Tree) : String × Tree :=
  ((readText m.1).getD "", m.2)

theorem Named.titled {name : String} {m : List Piece × Tree} (h : Named name m) :
    titled m = (name, m.2) := by
  unfold Named at h
  simp [Json.titled, h]

theorem namedMembers_of_legible {ms : List (List Piece × Tree)} (h : Legible ms) :
    namedMembers ms = some (ms.map titled) := by
  induction ms with
  | nil => rfl
  | cons m ms ih =>
    obtain ⟨⟨name, hname⟩, hrest⟩ := legible_cons.1 h
    have hkey : readText m.1 = some name := hname
    rw [List.map_cons, hname.titled, namedMembers, hkey, ih hrest]
    rfl

theorem legible_of_namedMembers {ms : List (List Piece × Tree)} {named : Fields}
    (h : namedMembers ms = some named) : Legible ms := by
  induction ms generalizing named with
  | nil => exact fun m hm => nomatch hm
  | cons m ms ih =>
    obtain ⟨name, hname, h⟩ := Option.bind_eq_some_iff.1 h
    obtain ⟨rest, hrest, -⟩ := Option.bind_eq_some_iff.1 h
    exact legible_cons.2 ⟨⟨name, hname⟩, ih hrest⟩

/-- The known members of an object. -/
def known (names : List String) (ms : List (List Piece × Tree)) : Fields :=
  (ms.map titled).filter (·.1 ∈ names)

theorem fields_object_eq_some_iff {names : List String} {depth : Nat} (hd : 0 < depth)
    {ms : List (List Piece × Tree)} {fs : Fields} :
    (Tree.object ms).fields names depth = some fs
      ↔ Legible ms ∧ ((known names ms).map (·.1)).Nodup ∧ fs = known names ms := by
  have heq {named : Fields} : (if 0 < depth ∧ ((named.filter (·.1 ∈ names)).map (·.1)).Nodup
      then some (named.filter (·.1 ∈ names)) else none) = some fs
      ↔ ((named.filter (·.1 ∈ names)).map (·.1)).Nodup ∧ fs = named.filter (·.1 ∈ names) := by
    rw [Option.ite_none_right_eq_some, and_iff_right hd, Option.some.injEq, eq_comm (a := fs)]
  constructor
  · intro h
    obtain ⟨named, hnamed, h⟩ := Option.bind_eq_some_iff.1 h
    have hl := legible_of_namedMembers hnamed
    rw [namedMembers_of_legible hl, Option.some.injEq] at hnamed
    subst hnamed
    exact ⟨hl, heq.1 h⟩
  · rintro ⟨hl, h⟩
    exact Option.bind_eq_some_iff.2 ⟨_, namedMembers_of_legible hl, heq.2 h⟩

theorem mem_known {names : List String} {ms : List (List Piece × Tree)} (h : Legible ms)
    {name : String} {t : Tree} :
    (name, t) ∈ known names ms ↔ name ∈ names ∧ ∃ m ∈ ms, Named name m ∧ m.2 = t := by
  simp only [known, List.mem_filter, List.mem_map, decide_eq_true_eq]
  constructor
  · rintro ⟨⟨m, hm, heq⟩, hname⟩
    obtain ⟨name', hname'⟩ := h m hm
    rw [hname'.titled, Prod.mk.injEq] at heq
    exact ⟨hname, m, hm, heq.1 ▸ hname', heq.2⟩
  · rintro ⟨hname, m, hm, hnamed, rfl⟩
    exact ⟨⟨m, hm, hnamed.titled⟩, hname⟩

/-- Each of the names is given at most once. -/
def Once (names : List String) (ms : List (List Piece × Tree)) : Prop :=
  ∀ name ∈ names, ms.Pairwise fun m m' => ¬ (Named name m ∧ Named name m')

theorem once_cons {names : List String} {m : List Piece × Tree} {ms : List (List Piece × Tree)} :
    Once names (m :: ms)
      ↔ (∀ name ∈ names, Named name m → ∀ m' ∈ ms, ¬ Named name m') ∧ Once names ms := by
  unfold Once
  simp only [List.pairwise_cons, not_and]
  constructor
  · intro h
    exact ⟨fun name hn hm m' hm' => (h name hn).1 m' hm' hm, fun name hn => (h name hn).2⟩
  · rintro ⟨hm, h⟩ name hn
    exact ⟨fun m' hm' hnamed => hm name hn hnamed m' hm', h name hn⟩

theorem known_cons {names : List String} {m : List Piece × Tree} {name : String}
    (h : Named name m) (ms : List (List Piece × Tree)) :
    known names (m :: ms)
      = if name ∈ names then (name, m.2) :: known names ms else known names ms := by
  simp only [known, List.map_cons, h.titled, List.filter_cons, decide_eq_true_eq]

theorem nodup_known {names : List String} {ms : List (List Piece × Tree)} (h : Legible ms) :
    ((known names ms).map (·.1)).Nodup ↔ Once names ms := by
  induction ms with
  | nil => simp [known, Once]
  | cons m ms ih =>
    obtain ⟨⟨name, hname⟩, hrest⟩ := legible_cons.1 h
    rw [once_cons, ← ih hrest, known_cons hname]
    split_ifs with hn
    · have hfirst : name ∉ (known names ms).map (·.1) ↔ ∀ m' ∈ ms, ¬ Named name m' := by
        simp only [List.mem_map, Prod.exists, exists_and_right, exists_eq_right, mem_known hrest]
        simp [hn]
      rw [List.map_cons, List.nodup_cons, hfirst]
      refine and_congr_left fun _ => ⟨?_, fun h' => h' name hn hname⟩
      intro h' name' _ hm'
      exact hname.unique hm' ▸ h'
    · refine (and_iff_right ?_).symm
      intro name' hn' hm'
      exact absurd (hm'.unique hname ▸ hn') hn

theorem lookup_eq_some_iff {fs : Fields} (h : (fs.map (·.1)).Nodup) {name : String} {t : Tree} :
    fs.lookup name = some t ↔ (name, t) ∈ fs := by
  induction fs with
  | nil => simp
  | cons f fs ih =>
    obtain ⟨name', t'⟩ := f
    rw [List.map_cons, List.nodup_cons] at h
    by_cases heq : name = name'
    · subst heq
      have hother : (name, t) ∉ fs := fun hm => h.1 (List.mem_map.2 ⟨_, hm, rfl⟩)
      simp [hother, eq_comm]
    · have hne : (name == name') = false := by simpa using heq
      simp [List.lookup_cons, hne, heq, ih h.2]

/-! ## What the fields of an object are -/

section

variable {names : List String} {depth : Nat} {ms : List (List Piece × Tree)} {fs : Fields}

theorem isSome_fields_object (hd : 0 < depth) :
    ((Tree.object ms).fields names depth).isSome ↔ Legible ms ∧ Once names ms := by
  rw [Option.isSome_iff_exists]
  constructor
  · rintro ⟨fs, hfs⟩
    obtain ⟨hl, hn, -⟩ := (fields_object_eq_some_iff hd).1 hfs
    exact ⟨hl, (nodup_known hl).1 hn⟩
  · rintro ⟨hl, ho⟩
    exact ⟨_, (fields_object_eq_some_iff hd).2 ⟨hl, (nodup_known hl).2 ho, rfl⟩⟩

/-- A field of an object is the member of that name. -/
theorem lookup_fields_object (hd : 0 < depth) (h : (Tree.object ms).fields names depth = some fs)
    {name : String} (hname : name ∈ names) {t : Tree} :
    fs.lookup name = some t ↔ ∃ m ∈ ms, Named name m ∧ m.2 = t := by
  obtain ⟨hl, hn, rfl⟩ := (fields_object_eq_some_iff hd).1 h
  rw [lookup_eq_some_iff hn, mem_known hl, and_iff_right hname]

theorem lookup_fields_object_eq_none (hd : 0 < depth)
    (h : (Tree.object ms).fields names depth = some fs) {name : String} (hname : name ∈ names) :
    fs.lookup name = none ↔ ∀ m ∈ ms, ¬ Named name m := by
  rw [Option.eq_none_iff_forall_ne_some]
  simp only [ne_eq, lookup_fields_object hd h hname, not_exists, not_and]
  constructor
  · intro h m hm hnamed
    exact h m.2 m hm hnamed rfl
  · intro h t m hm hnamed _
    exact h m hm hnamed

end

theorem legible_perm {ms ms' : List (List Piece × Tree)} (h : ms.Perm ms') :
    Legible ms ↔ Legible ms' :=
  forall_congr' fun m => by rw [h.mem_iff]

theorem once_perm {names : List String} {ms ms' : List (List Piece × Tree)} (h : ms.Perm ms') :
    Once names ms ↔ Once names ms' := by
  refine forall₂_congr fun name _ => h.pairwise_iff ?_
  intro m m' hm hm'
  exact hm hm'.symm

/-- Whether an object is a record does not hang on what one member holds. -/
theorem isSome_fields_replaced {names : List String} {depth : Nat} (hd : 0 < depth)
    (front back : List (List Piece × Tree)) (key : List Piece) (t t' : Tree) :
    ((Tree.object (front ++ (key, t) :: back)).fields names depth).isSome
      ↔ ((Tree.object (front ++ (key, t') :: back)).fields names depth).isSome := by
  rw [isSome_fields_object hd, isSome_fields_object hd, legible_perm List.perm_middle,
    once_perm List.perm_middle, legible_perm List.perm_middle, once_perm List.perm_middle,
    legible_cons, once_cons, legible_cons, once_cons]
  exact Iff.rfl

/-! ## Changes that leave a record alone -/

/-- Fields that are read alike: the same ones, or one is missing here and its default there. -/
inductive Layout.Agree (r : Layout) : Option Fields → Option Fields → Prop
  | none : Agree r none none
  | some {fs gs : Fields} (h : ∀ s ∈ r, fs.lookup s.name = gs.lookup s.name
      ∨ fs.lookup s.name = none ∧ gs.lookup s.name = some s.default) :
      Agree r (some fs) (some gs)

theorem Layout.Agree.trans {r : Layout} {x y z : Option Fields} (h : r.Agree x y)
    (h' : r.Agree y z) : r.Agree x z := by
  cases h with
  | none => exact h'
  | some h =>
    cases h' with
    | some h' =>
      refine .some fun s hs => ?_
      rcases h s hs with h | ⟨h, hg⟩ <;> rcases h' s hs with h' | ⟨h', hk⟩
      · exact .inl (h.trans h')
      · exact .inr ⟨h.trans h', hk⟩
      · exact .inr ⟨h, h' ▸ hg⟩
      · exact nomatch hg.symm.trans h'

namespace Layout

variable {r : Layout} {depth : Nat} {ms ms' : List (List Piece × Tree)}

theorem Agree.of_fields {t u : Tree}
    (hsome : (t.fields r.names depth).isSome ↔ (u.fields r.names depth).isSome)
    (h : ∀ {fs gs : Fields}, t.fields r.names depth = .some fs → u.fields r.names depth = .some gs →
      ∀ s ∈ r, fs.lookup s.name = gs.lookup s.name
        ∨ fs.lookup s.name = .none ∧ gs.lookup s.name = .some s.default) :
    r.Agree (t.fields r.names depth) (u.fields r.names depth) := by
  cases ht : t.fields r.names depth with
  | none =>
    cases hu : u.fields r.names depth with
    | none => exact .none
    | some gs => simp [ht, hu] at hsome
  | some fs =>
    cases hu : u.fields r.names depth with
    | none => simp [ht, hu] at hsome
    | some gs => exact .some (h ht hu)

theorem mem_names {s : Slot} (hs : s ∈ r) : s.name ∈ r.names :=
  List.mem_map_of_mem hs

theorem agree_permuted (hd : 0 < depth) (h : ms.Perm ms') :
    r.Agree ((Tree.object ms).fields r.names depth) ((Tree.object ms').fields r.names depth) := by
  refine .of_fields ?_ fun hfs hgs s hs => .inl ?_
  · rw [isSome_fields_object hd, isSome_fields_object hd]
    exact and_congr (legible_perm h) (once_perm h)
  · refine Option.ext fun t => ?_
    rw [lookup_fields_object hd hfs (mem_names hs), lookup_fields_object hd hgs (mem_names hs)]
    simp only [h.mem_iff]

theorem agree_unknown (hd : 0 < depth) {m : List Piece × Tree} {name : String} (hm : Named name m)
    (hr : name ∉ r.names) :
    r.Agree ((Tree.object ms).fields r.names depth)
      ((Tree.object (m :: ms)).fields r.names depth) := by
  have hother {name' : String} (hn : name' ∈ r.names) : ¬ Named name' m :=
    fun h' => hr (hm.unique h' ▸ hn)
  have hl : Legible (m :: ms) ↔ Legible ms := legible_cons.trans (and_iff_right ⟨name, hm⟩)
  refine .of_fields ?_ fun hfs hgs s hs => .inl ?_
  · rw [isSome_fields_object hd, isSome_fields_object hd, once_cons, hl,
      and_iff_right fun name' hn h' => absurd h' (hother hn)]
  · refine Option.ext fun t => ?_
    rw [lookup_fields_object hd hfs (mem_names hs), lookup_fields_object hd hgs (mem_names hs)]
    simp [hother (mem_names hs)]

theorem agree_missing (hd : 0 < depth) (hn : r.names.Nodup) {key : List Piece} {s : Slot}
    (hs : s ∈ r) (hkey : readText key = some s.name) (hm : ∀ m ∈ ms, ¬ Named s.name m) :
    r.Agree ((Tree.object ms).fields r.names depth)
      ((Tree.object ((key, s.default) :: ms)).fields r.names depth) := by
  have hnamed : Named s.name (key, s.default) := hkey
  have hl : Legible ((key, s.default) :: ms) ↔ Legible ms :=
    legible_cons.trans (and_iff_right ⟨s.name, hnamed⟩)
  refine .of_fields ?_ fun hfs hgs s' hs' => ?_
  · rw [isSome_fields_object hd, isSome_fields_object hd, once_cons, hl,
      and_iff_right fun name' _ h' => hnamed.unique h' ▸ hm]
  · by_cases heq : s'.name = s.name
    · obtain rfl : s' = s := List.inj_on_of_nodup_map hn hs' hs heq
      refine .inr ⟨(lookup_fields_object_eq_none hd hfs (mem_names hs)).2 hm, ?_⟩
      rw [lookup_fields_object hd hgs (mem_names hs)]
      exact ⟨_, List.mem_cons_self, hnamed, rfl⟩
    · have hother : ¬ Named s'.name (key, s.default) := fun h' => heq (h'.unique hnamed)
      refine .inl (Option.ext fun t => ?_)
      rw [lookup_fields_object hd hfs (mem_names hs'), lookup_fields_object hd hgs (mem_names hs')]
      simp [hother]

/-- A record is read alike before and after a change that leaves it alone. -/
theorem Step.agree {t u : Tree} (h : r.Step t u) (hd : 0 < depth) (hn : r.names.Nodup) :
    r.Agree (t.fields r.names depth) (u.fields r.names depth) := by
  cases h with
  | permuted h => exact agree_permuted hd h
  | unknown hm hr => exact (agree_unknown hd hm hr).trans (agree_permuted hd List.perm_middle.symm)
  | missing hs hkey hm =>
    exact (agree_missing hd hn hs hkey hm).trans (agree_permuted hd List.perm_middle.symm)

end Layout

/-! ## Records that fit -/

theorem Fields.get_of_agree {α : Type} {fs gs : Fields} {name : String} {t : Tree} {default : α}
    {read : Tree → Option α} (hd : read t = some default)
    (h : fs.lookup name = gs.lookup name ∨ fs.lookup name = none ∧ gs.lookup name = some t) :
    fs.get name default read = gs.get name default read := by
  unfold get
  rcases h with h | ⟨h, hg⟩
  · rw [h]
  · simp only [h, hg, hd]

theorem Fields.isSome_get {α : Type} {fs : Fields} {name : String} {default : α}
    {read : Tree → Option α} :
    (fs.get name default read).isSome ↔ ∀ t, fs.lookup name = some t → (read t).isSome := by
  unfold get
  cases fs.lookup name with
  | none => simp
  | some t => simp

theorem map_fst_zip_sublist {α β : Type} : ∀ (l : List α) (l' : List β),
    ((l.zip l').map (·.1)).Sublist l
  | [], _ => .slnil
  | _ :: _, [] => List.nil_sublist _
  | _ :: l, _ :: l' => (map_fst_zip_sublist l l').cons_cons _

namespace Layout

variable {r : Layout} {depth : Nat}

theorem lookup_zip (hn : r.names.Nodup) {items : List Tree} {s : Slot} (hs : s ∈ r) {v : Tree} :
    (r.names.zip items).lookup s.name = some v ↔ (s, v) ∈ r.zip items := by
  rw [lookup_eq_some_iff ((map_fst_zip_sublist _ _).nodup hn), names, List.zip_map_left,
    List.mem_map]
  constructor
  · rintro ⟨⟨s', v'⟩, hm, heq⟩
    obtain ⟨hname, rfl⟩ := Prod.mk.inj heq
    obtain rfl : s' = s := List.inj_on_of_nodup_map hn (List.of_mem_zip hm).1 hs hname
    exact hm
  · intro hm
    exact ⟨_, hm, rfl⟩

theorem once_names {ms : List (List Piece × Tree)} :
    Once r.names ms ↔ ∀ s ∈ r, ms.Pairwise fun m m' => ¬ (Named s.name m ∧ Named s.name m') :=
  List.forall_mem_map

theorem fits_object (hd : 0 < depth) {ms : List (List Piece × Tree)} :
    r.Fits (.object ms) ↔ ∃ fs, (Tree.object ms).fields r.names depth = some fs
      ∧ ∀ s ∈ r, ∀ v, fs.lookup s.name = some v → s.Fits v := by
  constructor
  · rintro (⟨legible, once, typed⟩ | _)
    have hsome := (isSome_fields_object hd).2 ⟨legible, once_names.2 once⟩
    obtain ⟨fs, hfs⟩ := Option.isSome_iff_exists.1 hsome
    refine ⟨fs, hfs, fun s hs v hv => ?_⟩
    obtain ⟨m, hm, hnamed, rfl⟩ := (lookup_fields_object hd hfs (mem_names hs)).1 hv
    exact typed s hs m hm hnamed
  · rintro ⟨fs, hfs, htyped⟩
    obtain ⟨legible, once⟩ := (isSome_fields_object hd).1 (Option.isSome_iff_exists.2 ⟨fs, hfs⟩)
    refine .object legible (once_names.1 once) fun s hs m hm hnamed => ?_
    exact htyped s hs m.2 ((lookup_fields_object hd hfs (mem_names hs)).2 ⟨m, hm, hnamed, rfl⟩)

theorem fits_list (hd : 0 < depth) (hn : r.names.Nodup) {items : List Tree} :
    r.Fits (.list items) ↔ ∃ fs, (Tree.list items).fields r.names depth = some fs
      ∧ ∀ s ∈ r, ∀ v, fs.lookup s.name = some v → s.Fits v := by
  have hlength : r.names.length = r.length := List.length_map _
  have hfields {fs : Fields} : (Tree.list items).fields r.names depth = some fs
      ↔ items.length ≤ r.length ∧ r.names.zip items = fs := by
    rw [Tree.fields, Option.ite_none_right_eq_some, and_iff_right hd, Option.some.injEq, hlength]
  constructor
  · rintro (_ | ⟨short, typed⟩)
    refine ⟨_, hfields.2 ⟨short, rfl⟩, fun s hs v hv => ?_⟩
    exact typed (s, v) ((lookup_zip hn hs).1 hv)
  · rintro ⟨fs, hfs, htyped⟩
    obtain ⟨short, rfl⟩ := hfields.1 hfs
    refine .list short fun p hp => ?_
    exact htyped p.1 (List.of_mem_zip hp).1 p.2 ((lookup_zip hn (List.of_mem_zip hp).1).2 hp)

/-- A tree fits a layout if its fields are given and each is what its place may hold. -/
theorem fits_iff (hd : 0 < depth) (hn : r.names.Nodup) {t : Tree} :
    r.Fits t ↔ ∃ fs, t.fields r.names depth = some fs
      ∧ ∀ s ∈ r, ∀ v, fs.lookup s.name = some v → s.Fits v := by
  match t with
  | .object ms => exact fits_object hd
  | .list items => exact fits_list hd hn
  | .null | .bool _ | .number _ | .text _ =>
    constructor
    · rintro ⟨⟩
    · rintro ⟨fs, hfs, -⟩
      cases hfs

end Layout

end HttpDns.Json
