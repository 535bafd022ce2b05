import HttpDns.Proofs.Brackets
import HttpDns.Proofs.Layouts
import HttpDns.Reply
import Mathlib.Logic.Relation
import Mathlib.Tactic.SplitIfs

/-!
# Reply bodies are decoded by name, and all or nothing

A body is decoded from the members of its object: their order, blanks between tokens and members
that are not known play no part, and a missing member stands for its default (`Form.Decodes.alike`).
A body that does not fit its layout is read as nothing, be it in one entry of many, and so is a
text that is no tree, or one with something behind it.
-/

namespace HttpDns.Json

/-! ## Whole numbers -/

theorem le_ofDigitChars (n : Nat) (ds : List Char) : n ≤ Nat.ofDigitChars 10 ds n := by
  induction ds generalizing n with
  | nil => exact Nat.le_refl n
  | cons d ds ih => exact Nat.le_trans (by omega) (ih (10 * n + (d.toNat - 0x30)))

/-- Digits are appended without loss as long as the number fits 64 bits. -/
theorem appendDigits_eq {n : Nat} {ds : List Char} (h : Nat.ofDigitChars 10 ds n ≤ maxWord) :
    appendDigits n ds = (Nat.ofDigitChars 10 ds n, 0) := by
  induction ds generalizing n with
  | nil => rfl
  | cons d ds ih =>
    have hfits : 10 * n + (d.toNat - 0x30) ≤ maxWord := Nat.le_trans (le_ofDigitChars _ ds) h
    rw [appendDigits]
    exact (if_pos hfits).trans (ih h)

theorem appendDigits_lost {n : Nat} {ds : List Char} (hn : n ≤ maxWord)
    (h : maxWord < Nat.ofDigitChars 10 ds n) : (appendDigits n ds).2 ≠ 0 := by
  induction ds generalizing n with
  | nil => exact absurd h (Nat.not_lt.2 hn)
  | cons d ds ih =>
    rw [appendDigits]
    by_cases hfits : 10 * n + (d.toNat - 0x30) ≤ maxWord
    · simpa [hfits] using ih hfits h
    · simp [hfits]

/-- A whole number that is not negative is read only from digits that fit. -/
theorem Numeral.read_natural {n : Numeral} {k : Nat} (h : n.read = some (.whole k)) :
    n = ⟨false, n.whole, none, none⟩ ∧ digitsValue n.whole = k := by
  obtain ⟨negative, whole, fraction, exponent⟩ := n
  have hreal (x : Option Number.Binary64) (b : Bool) : x.map (Number.real b) ≠ some (.whole k) := by
    cases x <;> simp
  rcases hd : appendDigits 0 whole with ⟨head, lost⟩
  simp only [Numeral.read, hd] at h
  split_ifs at h with hplain hsign hrange
  · simp only [Option.some.injEq, Number.whole.injEq] at h
    omega
  · exact absurd h (hreal _ _)
  · obtain ⟨rfl, rfl, rfl⟩ := hplain
    have hfits : Nat.ofDigitChars 10 whole 0 ≤ maxWord := by
      refine Nat.not_lt.1 fun hlost => ?_
      exact appendDigits_lost (Nat.zero_le _) hlost (congrArg Prod.snd hd)
    rw [appendDigits_eq hfits, Prod.mk.injEq] at hd
    have hhead : head = k := by
      simp only [Option.some.injEq, Number.whole.injEq] at h
      omega
    have hpositive : negative = false := by simpa using hsign
    exact ⟨by rw [hpositive], hd.1.trans hhead⟩
  · exact absurd h (hreal _ _)

theorem natural?_eq_some_iff {limit : Nat} (hl : limit ≤ maxWord) {n : Numeral} {k : Nat} :
    (Tree.number n).natural? limit = some k
      ↔ n = ⟨false, n.whole, none, none⟩ ∧ digitsValue n.whole = k ∧ k ≤ limit := by
  constructor
  · intro h
    simp only [Tree.natural?] at h
    split at h
    · rename_i k' hread
      obtain ⟨hk, heq⟩ := Option.ite_none_right_eq_some.1 h
      obtain rfl := Option.some.inj heq
      exact ⟨(Numeral.read_natural hread).1, (Numeral.read_natural hread).2, hk⟩
    · cases h
  · rintro ⟨heq, rfl, hk⟩
    have hfits : Nat.ofDigitChars 10 n.whole 0 ≤ maxWord := Nat.le_trans hk hl
    have hread : n.read = some (.whole (digitsValue n.whole)) := by
      rw [heq]
      simp only [Numeral.read, appendDigits_eq hfits]
      rfl
    simp only [Tree.natural?, hread]
    exact if_pos hk

end HttpDns.Json

namespace HttpDns.Reply

open Json

/-! ## What the members may hold -/

def IsText (t : Tree) : Prop :=
  ∃ pieces s, t = .text pieces ∧ readText pieces = some s

def IsListOf (Item : Tree → Prop) (t : Tree) : Prop :=
  ∃ items, t = .list items ∧ ∀ item ∈ items, Item item

/-- A whole number up to the limit, written as its digits. -/
def IsWord (limit : Nat) (t : Tree) : Prop :=
  ∃ ds, t = .number ⟨false, ds, none, none⟩ ∧ digitsValue ds ≤ limit

def IsTextOrNull (t : Tree) : Prop :=
  t = .null ∨ IsText t

/-- A value that can be kept: nested at most `depth` deep, its strings text and its numbers in
range. -/
def IsKept (depth : Nat) (t : Tree) : Prop :=
  (t.value depth).isSome

/-! ## The layouts -/

def numeral (d : Char) : Tree :=
  .number { whole := [d] }

def scheduleLayout : Layout :=
  [⟨"service_ip", .list [], IsListOf IsText⟩, ⟨"service_ipv6", .list [], IsListOf IsText⟩]

def singleLayout : Layout :=
  [⟨"host", .text [], IsText⟩, ⟨"ips", .list [], IsListOf IsText⟩,
    ⟨"ipsv6", .list [], IsListOf IsText⟩, ⟨"ttl", numeral '0', IsWord (UInt32.size - 1)⟩,
    ⟨"origin_ttl", numeral '0', IsWord (UInt32.size - 1)⟩, ⟨"client_ip", .null, IsTextOrNull⟩,
    ⟨"extra", .null, IsKept (maxDepth - 1)⟩]

def entryLayout : Layout :=
  [⟨"host", .text [], IsText⟩, ⟨"ips", .list [], IsListOf IsText⟩,
    ⟨"ipsv6", .list [], IsListOf IsText⟩, ⟨"type", numeral '1', IsWord (UInt16.size - 1)⟩,
    ⟨"ttl", numeral '0', IsWord (UInt32.size - 1)⟩,
    ⟨"origin_ttl", numeral '0', IsWord (UInt32.size - 1)⟩, ⟨"client_ip", .null, IsTextOrNull⟩]

def multiLayout : Layout :=
  [⟨"dns", .list [], IsListOf entryLayout.Fits⟩]

/-- A change of a multi body that leaves what it says alone, in its object or in one entry. -/
inductive MultiStep : Tree → Tree → Prop
  | body {t u : Tree} (h : multiLayout.Step t u) : MultiStep t u
  | entry {front back : List (List Piece × Tree)} {key : List Piece} {before after : List Tree}
      {e e' : Tree} (hkey : readText key = some "dns") (h : entryLayout.Step e e') :
      MultiStep (.object (front ++ (key, .list (before ++ e :: after)) :: back))
        (.object (front ++ (key, .list (before ++ e' :: after)) :: back))

/-! ## Reading the members -/

theorem isSome_text? {t : Tree} : t.text?.isSome ↔ IsText t := by
  unfold IsText
  cases t with
  | text pieces => simp [Tree.text?, Option.isSome_iff_exists]
  | null | bool | number | list | object => simp [Tree.text?]

theorem isSome_mapM {α β : Type} {f : α → Option β} {l : List α} :
    (l.mapM f).isSome ↔ ∀ a ∈ l, (f a).isSome := by
  induction l with
  | nil => simp
  | cons a l ih =>
    rw [List.forall_mem_cons, ← ih]
    cases h : f a <;> cases h' : l.mapM f <;> simp [List.mapM_cons, h, h']

theorem isSome_listOf? {α : Type} {depth : Nat} (hd : 0 < depth) {read : Tree → Option α}
    {Item : Tree → Prop} (hread : ∀ t, (read t).isSome ↔ Item t) {t : Tree} :
    (t.listOf? depth read).isSome ↔ IsListOf Item t := by
  unfold IsListOf
  cases t with
  | list items => simp [Tree.listOf?, hd, isSome_mapM, hread]
  | null | bool | number | text | object => simp [Tree.listOf?]

theorem isSome_textOrNull? {t : Tree} : t.textOrNull?.isSome ↔ IsTextOrNull t := by
  unfold IsTextOrNull
  cases t with
  | null => simp [Tree.textOrNull?]
  | text | bool | number | list | object => simp [Tree.textOrNull?, ← isSome_text?]

theorem isSome_valueOrNull? {depth : Nat} {t : Tree} :
    (t.valueOrNull? depth).isSome ↔ IsKept depth t := by
  unfold IsKept
  cases t with
  | null => simp [Tree.valueOrNull?, Tree.value]
  | text | bool | number | list | object => simp [Tree.valueOrNull?]

theorem isSome_natural? {limit : Nat} (hl : limit ≤ maxWord) {t : Tree} :
    (t.natural? limit).isSome ↔ IsWord limit t := by
  unfold IsWord
  cases t with
  | number n =>
    simp only [Option.isSome_iff_exists, natural?_eq_some_iff hl, Tree.number.injEq]
    constructor
    · rintro ⟨k, heq, rfl, hk⟩
      exact ⟨n.whole, heq, hk⟩
    · rintro ⟨ds, rfl, hk⟩
      exact ⟨_, rfl, rfl, hk⟩
  | null | bool | text | list | object => simp [Tree.natural?]

theorem isSome_word32? {t : Tree} : t.word32?.isSome ↔ IsWord (UInt32.size - 1) t := by
  rw [Tree.word32?, Option.isSome_map, isSome_natural? (by decide)]

theorem isSome_word16? {t : Tree} : t.word16?.isSome ↔ IsWord (UInt16.size - 1) t := by
  rw [Tree.word16?, Option.isSome_map, isSome_natural? (by decide)]

theorem isSome_texts {depth : Nat} (hd : 0 < depth) {t : Tree} :
    (texts depth t).isSome ↔ IsListOf IsText t :=
  isSome_listOf? hd fun _ => isSome_text?

/-! ## Reading the records -/

theorem isSome_bind {α β : Type} {x : Option α} {f : α → Option β} {P : Prop}
    (h : ∀ a, (f a).isSome ↔ P) : (x >>= f).isSome ↔ x.isSome ∧ P := by
  cases x with
  | none => simp
  | some a => simp [h a]

/-- A field is read if it holds what its place may hold, or is missing. -/
theorem isSome_get {α : Type} {fs : Fields} {name : String} {default : α}
    {read : Tree → Option α} {Item : Tree → Prop} (h : ∀ t, (read t).isSome ↔ Item t) :
    (fs.get name default read).isSome ↔ ∀ t, fs.lookup name = some t → Item t := by
  simp only [Fields.isSome_get, h]

section

variable {α : Type} {r : Layout} {d : Nat} {gather : Fields → Option α}

/-- A record is read if it fits, when what is made of its fields is. -/
theorem isSome_record (hd : 0 < d) (hn : r.names.Nodup)
    (h : ∀ fs, (gather fs).isSome ↔ ∀ s ∈ r, ∀ v, fs.lookup s.name = some v → s.Fits v) {t : Tree} :
    ((t.fields r.names d).bind gather).isSome ↔ r.Fits t := by
  rw [Layout.fits_iff hd hn, Option.isSome_iff_exists]
  simp only [Option.bind_eq_some_iff, ← h, Option.isSome_iff_exists]
  exact ⟨fun ⟨a, fs, hfs, ha⟩ => ⟨fs, hfs, a, ha⟩, fun ⟨fs, hfs, a, ha⟩ => ⟨a, fs, hfs, ha⟩⟩

/-- Records of fields that agree are the same, when what is made of the fields is. -/
theorem bind_of_agree {x y : Option Fields} (hxy : r.Agree x y)
    (h : ∀ fs gs, (∀ s ∈ r, fs.lookup s.name = gs.lookup s.name
      ∨ fs.lookup s.name = none ∧ gs.lookup s.name = some s.default) → gather fs = gather gs) :
    x.bind gather = y.bind gather := by
  cases hxy with
  | none => rfl
  | some hfs => exact h _ _ hfs

end

theorem isSome_ips {t : Tree} : (texts (maxDepth - 1) t).isSome ↔ IsListOf IsText t :=
  isSome_texts (by decide)

theorem isSome_schedule? {t : Tree} : (schedule? t).isSome ↔ scheduleLayout.Fits t := by
  refine isSome_record (r := scheduleLayout) (d := maxDepth) (by decide) (by decide) fun fs => ?_
  refine (isSome_bind fun _ => isSome_bind fun _ => iff_true_intro rfl).trans ?_
  simp only [isSome_get fun _ => isSome_ips, scheduleLayout, List.forall_mem_cons]
  simp

theorem schedule?_step {t u : Tree} (h : scheduleLayout.Step t u) : schedule? t = schedule? u := by
  refine bind_of_agree (h.agree (by decide) (by decide)) fun fs gs hfs => ?_
  simp only [scheduleLayout, List.forall_mem_cons] at hfs
  obtain ⟨hipv4, hipv6, -⟩ := hfs
  have htexts : texts (maxDepth - 1) (.list []) = some [] := rfl
  rw [Fields.get_of_agree htexts hipv4, Fields.get_of_agree htexts hipv6]

theorem isSome_single? {t : Tree} : (single? t).isSome ↔ singleLayout.Fits t := by
  refine isSome_record (r := singleLayout) (d := maxDepth) (by decide) (by decide) fun fs => ?_
  refine (isSome_bind fun _ => isSome_bind fun _ => isSome_bind fun _ => isSome_bind fun _ =>
    isSome_bind fun _ => isSome_bind fun _ => isSome_bind fun _ => iff_true_intro rfl).trans ?_
  simp only [isSome_get fun _ => isSome_text?, isSome_get fun _ => isSome_ips,
    isSome_get fun _ => isSome_word32?, isSome_get fun _ => isSome_textOrNull?,
    isSome_get fun _ => isSome_valueOrNull?, singleLayout, List.forall_mem_cons]
  simp

theorem text?_default : (Tree.text []).text? = some "" := rfl

theorem word32?_default : (numeral '0').word32? = some 0 := rfl

theorem single?_step {t u : Tree} (h : singleLayout.Step t u) : single? t = single? u := by
  refine bind_of_agree (h.agree (by decide) (by decide)) fun fs gs hfs => ?_
  simp only [singleLayout, List.forall_mem_cons] at hfs
  obtain ⟨hhost, hips, hipsv6, httl, horigin, hclient, hextra, -⟩ := hfs
  have htexts : texts (maxDepth - 1) (.list []) = some [] := rfl
  have hnull : Tree.null.textOrNull? = some none := rfl
  have hkept : Tree.null.valueOrNull? (maxDepth - 1) = some none := rfl
  rw [Fields.get_of_agree text?_default hhost, Fields.get_of_agree htexts hips,
    Fields.get_of_agree htexts hipsv6, Fields.get_of_agree word32?_default httl,
    Fields.get_of_agree word32?_default horigin, Fields.get_of_agree hnull hclient,
    Fields.get_of_agree hkept hextra]

theorem isSome_entryOf? {t : Tree} : (entryOf? t).isSome ↔ entryLayout.Fits t := by
  have hips {t : Tree} : (texts (maxDepth - 3) t).isSome ↔ IsListOf IsText t :=
    isSome_texts (by decide)
  refine isSome_record (r := entryLayout) (d := maxDepth - 2) (by decide) (by decide) fun fs => ?_
  refine (isSome_bind fun _ => isSome_bind fun _ => isSome_bind fun _ => isSome_bind fun _ =>
    isSome_bind fun _ => isSome_bind fun _ => isSome_bind fun _ => iff_true_intro rfl).trans ?_
  simp only [isSome_get fun _ => isSome_text?, isSome_get fun _ => hips,
    isSome_get fun _ => isSome_word16?, isSome_get fun _ => isSome_word32?,
    isSome_get fun _ => isSome_textOrNull?, entryLayout, List.forall_mem_cons]
  simp

theorem entryOf?_step {t u : Tree} (h : entryLayout.Step t u) : entryOf? t = entryOf? u := by
  refine bind_of_agree (h.agree (by decide) (by decide)) fun fs gs hfs => ?_
  simp only [entryLayout, List.forall_mem_cons] at hfs
  obtain ⟨hhost, hips, hipsv6, htype, httl, horigin, hclient, -⟩ := hfs
  have htexts : texts (maxDepth - 3) (.list []) = some [] := rfl
  have hone : (numeral '1').word16? = some 1 := rfl
  have hnull : Tree.null.textOrNull? = some none := rfl
  rw [Fields.get_of_agree text?_default hhost, Fields.get_of_agree htexts hips,
    Fields.get_of_agree htexts hipsv6, Fields.get_of_agree hone htype,
    Fields.get_of_agree word32?_default httl, Fields.get_of_agree word32?_default horigin,
    Fields.get_of_agree hnull hclient]

theorem isSome_multi? {t : Tree} : (multi? t).isSome ↔ multiLayout.Fits t := by
  have hentries {t : Tree} :
      (t.listOf? (maxDepth - 1) entryOf?).isSome ↔ IsListOf entryLayout.Fits t :=
    isSome_listOf? (by decide) fun _ => isSome_entryOf?
  refine isSome_record (r := multiLayout) (d := maxDepth) (by decide) (by decide) fun fs => ?_
  simp only [isSome_get fun _ => hentries, multiLayout, List.forall_mem_cons]
  simp

theorem mapM_append_cons_congr {α β : Type} {f : α → Option β} {a a' : α} (h : f a = f a')
    (l l' : List α) : (l ++ a :: l').mapM f = (l ++ a' :: l').mapM f := by
  simp only [List.mapM_append, List.mapM_cons, h]

theorem bind_congr_of_isSome {α β : Type} {x y : Option α} {f : α → Option β}
    (hsome : x.isSome ↔ y.isSome) (h : ∀ a b, x = some a → y = some b → f a = f b) :
    x.bind f = y.bind f := by
  cases x with
  | none => cases y with
    | none => rfl
    | some b => simp at hsome
  | some a => cases y with
    | none => simp at hsome
    | some b => exact h a b rfl rfl

/-- Where one entry is replaced by another that is read alike, the list is. -/
theorem multi?_entry {front back : List (List Piece × Tree)} {key : List Piece}
    {before after : List Tree} {e e' : Tree} (hkey : readText key = some "dns")
    (h : entryOf? e = entryOf? e') :
    multi? (.object (front ++ (key, .list (before ++ e :: after)) :: back))
      = multi? (.object (front ++ (key, .list (before ++ e' :: after)) :: back)) := by
  have hd : 0 < maxDepth := by decide
  have hgiven (items : List Tree) {fs : Fields}
      (hfs : (Tree.object (front ++ (key, .list items) :: back)).fields ["dns"] maxDepth
        = some fs) :
      fs.lookup "dns" = some (.list items) :=
    (lookup_fields_object hd hfs (List.mem_singleton.2 rfl)).2
      ⟨_, List.mem_append_right _ List.mem_cons_self, hkey, rfl⟩
  have hlist : (before ++ e :: after).mapM entryOf? = (before ++ e' :: after).mapM entryOf? :=
    mapM_append_cons_congr h before after
  refine bind_congr_of_isSome (isSome_fields_replaced hd front back key _ _) fun fs gs hfs hgs => ?_
  simp only [Fields.get, hgiven _ hfs, hgiven _ hgs, Tree.listOf?, hlist]

theorem multi?_step {t u : Tree} (h : MultiStep t u) : multi? t = multi? u := by
  cases h with
  | body h =>
    refine bind_of_agree (h.agree (by decide) (by decide)) fun fs gs hfs => ?_
    simp only [multiLayout, List.forall_mem_cons] at hfs
    have hdns : Tree.listOf? (maxDepth - 1) entryOf? (.list []) = some [] := rfl
    rw [Fields.get_of_agree hdns hfs.1]
  | entry hkey h => exact multi?_entry hkey (entryOf?_step h)

/-! ## Missing members -/

/-- No member has the name. -/
def Lacks (name : String) (ms : List (List Piece × Tree)) : Prop :=
  ∀ m ∈ ms, ¬ Named name m

/-- The roster is as it should be without the member. -/
def RosterDefault (r : Roster) : (name : String) → Prop
  | "service_ip" => r.ipv4 = []
  | "service_ipv6" => r.ipv6 = []
  | _ => True

def AnswerDefault (a : Answer) : (name : String) → Prop
  | "host" => a.host = ""
  | "ips" => a.ips = []
  | "ipsv6" => a.ipsv6 = []
  | "ttl" => a.ttl = 0
  | "origin_ttl" => a.originTtl = 0
  | "client_ip" => a.clientIp = none
  | "extra" => a.extra = none
  | _ => True

def EntryDefault (e : Entry) : (name : String) → Prop
  | "host" => e.host = ""
  | "ips" => e.ips = []
  | "ipsv6" => e.ipsv6 = []
  | "type" => e.recordType = 1
  | "ttl" => e.ttl = 0
  | "origin_ttl" => e.originTtl = 0
  | "client_ip" => e.clientIp = none
  | _ => True

theorem get_lacking {α : Type} {names : List String} {depth : Nat} (hd : 0 < depth)
    {ms : List (List Piece × Tree)} {fs : Fields}
    (hfs : (Tree.object ms).fields names depth = some fs) {name : String} (hname : name ∈ names)
    (hm : Lacks name ms) {default v : α} {read : Tree → Option α}
    (hv : fs.get name default read = some v) : v = default := by
  rw [Fields.get, (lookup_fields_object_eq_none hd hfs hname).2 hm] at hv
  exact (Option.some.inj hv).symm

theorem schedule?_lacking {ms : List (List Piece × Tree)} {r : Roster}
    (h : schedule? (.object ms) = some r) :
    ∀ s ∈ scheduleLayout, Lacks s.name ms → RosterDefault r s.name := by
  have hd : 0 < maxDepth := by decide
  obtain ⟨fs, hfs, h⟩ := Option.bind_eq_some_iff.1 h
  obtain ⟨ipv4, hipv4, h⟩ := Option.bind_eq_some_iff.1 h
  obtain ⟨ipv6, hipv6, h⟩ := Option.bind_eq_some_iff.1 h
  cases h
  simp only [scheduleLayout, List.forall_mem_cons, RosterDefault]
  exact ⟨fun hm => congrArg nonEmpty (get_lacking hd hfs (by decide) hm hipv4),
    fun hm => congrArg nonEmpty (get_lacking hd hfs (by decide) hm hipv6), fun s hs => nomatch hs⟩

theorem single?_lacking {ms : List (List Piece × Tree)} {a : Answer}
    (h : single? (.object ms) = some a) :
    ∀ s ∈ singleLayout, Lacks s.name ms → AnswerDefault a s.name := by
  have hd : 0 < maxDepth := by decide
  obtain ⟨fs, hfs, h⟩ := Option.bind_eq_some_iff.1 h
  obtain ⟨host, hhost, h⟩ := Option.bind_eq_some_iff.1 h
  obtain ⟨ips, hips, h⟩ := Option.bind_eq_some_iff.1 h
  obtain ⟨ipsv6, hipsv6, h⟩ := Option.bind_eq_some_iff.1 h
  obtain ⟨ttl, httl, h⟩ := Option.bind_eq_some_iff.1 h
  obtain ⟨originTtl, horigin, h⟩ := Option.bind_eq_some_iff.1 h
  obtain ⟨clientIp, hclient, h⟩ := Option.bind_eq_some_iff.1 h
  obtain ⟨extra, hextra, h⟩ := Option.bind_eq_some_iff.1 h
  cases h
  simp only [singleLayout, List.forall_mem_cons, AnswerDefault]
  exact ⟨fun hm => get_lacking hd hfs (by decide) hm hhost,
    fun hm => congrArg nonEmpty (get_lacking hd hfs (by decide) hm hips),
    fun hm => congrArg nonEmpty (get_lacking hd hfs (by decide) hm hipsv6),
    fun hm => get_lacking hd hfs (by decide) hm httl,
    fun hm => get_lacking hd hfs (by decide) hm horigin,
    fun hm => congrArg nonEmptyText (get_lacking hd hfs (by decide) hm hclient),
    fun hm => congrArg (·.bind extraText) (get_lacking hd hfs (by decide) hm hextra),
    fun s hs => nomatch hs⟩

theorem entryOf?_lacking {ms : List (List Piece × Tree)} {e : Entry}
    (h : entryOf? (.object ms) = some e) :
    ∀ s ∈ entryLayout, Lacks s.name ms → EntryDefault e s.name := by
  have hd : 0 < maxDepth - 2 := by decide
  obtain ⟨fs, hfs, h⟩ := Option.bind_eq_some_iff.1 h
  obtain ⟨host, hhost, h⟩ := Option.bind_eq_some_iff.1 h
  obtain ⟨ips, hips, h⟩ := Option.bind_eq_some_iff.1 h
  obtain ⟨ipsv6, hipsv6, h⟩ := Option.bind_eq_some_iff.1 h
  obtain ⟨recordType, htype, h⟩ := Option.bind_eq_some_iff.1 h
  obtain ⟨ttl, httl, h⟩ := Option.bind_eq_some_iff.1 h
  obtain ⟨originTtl, horigin, h⟩ := Option.bind_eq_some_iff.1 h
  obtain ⟨clientIp, hclient, h⟩ := Option.bind_eq_some_iff.1 h
  cases h
  simp only [entryLayout, List.forall_mem_cons, EntryDefault]
  exact ⟨fun hm => get_lacking hd hfs (by decide) hm hhost,
    fun hm => get_lacking hd hfs (by decide) hm hips,
    fun hm => get_lacking hd hfs (by decide) hm hipsv6,
    fun hm => get_lacking hd hfs (by decide) hm htype,
    fun hm => get_lacking hd hfs (by decide) hm httl,
    fun hm => get_lacking hd hfs (by decide) hm horigin,
    fun hm => get_lacking hd hfs (by decide) hm hclient, fun s hs => nomatch hs⟩

theorem multi?_lacking {ms : List (List Piece × Tree)} {es : List Entry}
    (h : multi? (.object ms) = some es) (hm : Lacks "dns" ms) : es = [] := by
  obtain ⟨fs, hfs, hdns⟩ := Option.bind_eq_some_iff.1 h
  exact get_lacking (by decide) hfs (by decide) hm hdns

/-! ## Entries of a multi body -/

theorem forall₂_of_mapM {α β : Type} {f : α → Option β} : ∀ {l : List α} {l' : List β},
    l.mapM f = some l' → List.Forall₂ (fun a b => f a = some b) l l'
  | [], l', h => by
    obtain rfl : [] = l' := by simpa using h
    exact .nil
  | a :: l, l', h => by
    rw [List.mapM_cons] at h
    obtain ⟨b, hb, h⟩ := Option.bind_eq_some_iff.1 h
    obtain ⟨bs, hbs, h⟩ := Option.bind_eq_some_iff.1 h
    obtain rfl := Option.some.inj h
    exact .cons hb (forall₂_of_mapM hbs)

/-- An item of a multi body is read as an entry that has the default of each member it lacks. -/
structure ReadAs (t : Tree) (e : Entry) : Prop where
  record : entryOf? t = some e
  missing : ∀ {ms : List (List Piece × Tree)}, t = .object ms →
    ∀ s ∈ entryLayout, Lacks s.name ms → EntryDefault e s.name

theorem multi?_items {ms : List (List Piece × Tree)} {es : List Entry}
    (h : multi? (.object ms) = some es) {key : List Piece} {items : List Tree}
    (hm : (key, .list items) ∈ ms) (hkey : readText key = some "dns") :
    List.Forall₂ ReadAs items es := by
  obtain ⟨fs, hfs, hdns⟩ := Option.bind_eq_some_iff.1 h
  have hgiven : fs.lookup "dns" = some (.list items) :=
    (lookup_fields_object (by decide) hfs (List.mem_singleton.2 rfl)).2 ⟨_, hm, hkey, rfl⟩
  rw [Fields.get, hgiven] at hdns
  have hitems : (if 0 < maxDepth - 1 then items.mapM entryOf? else none) = some es := hdns
  rw [if_pos (by decide)] at hitems
  refine (forall₂_of_mapM hitems).imp fun t e he => ⟨he, ?_⟩
  rintro ms rfl
  exact entryOf?_lacking he

/-! ## Decoding -/

/-- A form of bodies: the layout of the object, the changes that leave what it says alone, how its
tree is read and what is made of that, and what the reader makes of the text. -/
structure Form (α β : Type) where
  layout : Layout
  Step : Tree → Tree → Prop
  record : Tree → Option α
  finish : α → β
  read : String → β
  /-- what is read of a body that lacks a member -/
  Default : β → (name : String) → Prop
  nothing : β

def scheduleForm : Form Roster Roster where
  layout := scheduleLayout
  Step := scheduleLayout.Step
  record := schedule?
  finish := id
  read := readSchedule
  Default := RosterDefault
  nothing := {}

def singleForm : Form Answer (Option Answer) where
  layout := singleLayout
  Step := singleLayout.Step
  record := single?
  finish := some
  read := readSingle
  Default read name := ∃ a, read = some a ∧ AnswerDefault a name
  nothing := none

def multiForm : Form (List Entry) (List Answer) where
  layout := multiLayout
  Step := MultiStep
  record := multi?
  finish := answers
  read := readMulti
  Default read _ := read = []
  nothing := []

/-- Bodies of the form are decoded by the names of their members, and all or nothing. -/
structure Form.Decodes {α β : Type} (f : Form α β) : Prop where
  /-- bodies that come from each other by such changes, and by blanks, are read alike -/
  alike : ∀ {t u : Tree} {body body' : String}, Relation.EqvGen f.Step t u →
    t.Written body.toList → u.Written body'.toList → f.read body = f.read body'
  /-- what is read of a body that fits is made of the record of its tree -/
  accepted : ∀ {t : Tree} {body : String}, t.Written body.toList →
    (f.layout.Fits t ↔ ∃ a, f.record t = some a ∧ f.read body = f.finish a)
  missing : ∀ {ms : List (List Piece × Tree)} {body : String},
    (Tree.object ms).Written body.toList → f.layout.Fits (.object ms) →
      ∀ s ∈ f.layout, Lacks s.name ms → f.Default (f.read body) s.name
  refused : ∀ {t : Tree} {body : String}, t.Written body.toList → ¬ f.layout.Fits t →
    f.read body = f.nothing
  trailing : ∀ {ms : List (List Piece × Tree)} {body rest : String},
    (Tree.object ms).Written body.toList → ¬ Blank rest.toList → f.read (body ++ rest) = f.nothing
  malformed : ∀ {body : String}, (∀ t : Tree, ¬ t.Written body.toList) → f.read body = f.nothing

/-- A reader that only looks at the record of the tree decodes as the record is read. -/
theorem Form.decodes {α β : Type} (f : Form α β)
    (hread : ∀ body, f.read body
      = (((parse body.toList).bind f.record).map f.finish).getD f.nothing)
    (hstep : ∀ t u, f.Step t u → f.record t = f.record u)
    (hfits : ∀ t, (f.record t).isSome ↔ f.layout.Fits t)
    (hlacks : ∀ ms a, f.record (.object ms) = some a →
      ∀ s ∈ f.layout, Lacks s.name ms → f.Default (f.finish a) s.name) : f.Decodes := by
  have hwritten {t : Tree} {body : String} (h : t.Written body.toList) :
      f.read body = ((f.record t).map f.finish).getD f.nothing := by
    rw [hread, parse_eq_some_iff.2 h, Option.bind_some]
  have hnone {body : String} (h : parse body.toList = none) : f.read body = f.nothing := by
    rw [hread, h]
    rfl
  have hrecord {t u : Tree} (h : Relation.EqvGen f.Step t u) : f.record t = f.record u := by
    induction h with
    | rel t u h => exact hstep t u h
    | refl t => rfl
    | symm t u _ ih => exact ih.symm
    | trans t u v _ _ ih ih' => exact ih.trans ih'
  have haccepted {t : Tree} {body : String} (h : t.Written body.toList) :
      f.layout.Fits t ↔ ∃ a, f.record t = some a ∧ f.read body = f.finish a := by
    rw [← hfits, hwritten h, Option.isSome_iff_exists]
    refine exists_congr fun a => ⟨fun ha => ⟨ha, ?_⟩, And.left⟩
    rw [ha]
    rfl
  refine ⟨?_, haccepted, ?_, ?_, ?_, ?_⟩
  · intro t u body body' h ht hu
    rw [hwritten ht, hwritten hu, hrecord h]
  · intro ms body h hfit
    obtain ⟨a, ha, hbody⟩ := (haccepted h).1 hfit
    rw [hbody]
    exact hlacks ms a ha
  · intro t body ht hmisfit
    rw [← hfits, Option.not_isSome_iff_eq_none] at hmisfit
    rw [hwritten ht, hmisfit]
    rfl
  · intro ms body rest h hrest
    refine hnone ?_
    rw [String.toList_append, parse_trailing h hrest]
  · intro body h
    refine hnone ?_
    cases hparse : parse body.toList with
    | none => rfl
    | some t => exact absurd (parse_eq_some_iff.1 hparse) (h t)

theorem scheduleForm_decodes : scheduleForm.Decodes := by
  refine scheduleForm.decodes (fun body => ?_) (fun _ _ => schedule?_step)
    (fun _ => isSome_schedule?) fun _ _ => schedule?_lacking
  show ((parse body.toList).bind schedule?).getD {}
    = (((parse body.toList).bind schedule?).map id).getD {}
  cases (parse body.toList).bind schedule? <;> rfl

theorem singleForm_decodes : singleForm.Decodes := by
  refine singleForm.decodes (fun body => ?_) (fun _ _ => single?_step)
    (fun _ => isSome_single?) fun _ a h s hs hm => ⟨a, rfl, single?_lacking h s hs hm⟩
  show (parse body.toList).bind single? = (((parse body.toList).bind single?).map some).getD none
  cases (parse body.toList).bind single? <;> rfl

theorem multiForm_decodes : multiForm.Decodes := by
  refine multiForm.decodes (fun body => ?_) (fun _ _ => multi?_step)
    (fun _ => isSome_multi?) fun _ es h s hs hm => ?_
  · show answers (((parse body.toList).bind multi?).getD [])
      = (((parse body.toList).bind multi?).map answers).getD []
    cases (parse body.toList).bind multi? <;> rfl
  · obtain rfl := List.mem_singleton.1 hs
    obtain rfl := multi?_lacking h hm
    rfl

/-- Schedule, single and multi bodies are decoded by the names of their members, and all or nothing;
what is read of a multi body is made of its entries, each of which has its defaults as well. -/
theorem bodies_decode :
    scheduleForm.Decodes ∧ singleForm.Decodes ∧ multiForm.Decodes
      ∧ ∀ {ms : List (List Piece × Tree)} {key : List Piece} {items : List Tree} {body : String},
        (Tree.object ms).Written body.toList → multiLayout.Fits (.object ms) →
        (key, .list items) ∈ ms → readText key = some "dns" →
          ∃ es, readMulti body = answers es ∧ List.Forall₂ ReadAs items es := by
  refine ⟨scheduleForm_decodes, singleForm_decodes, multiForm_decodes, fun h hfit hm hkey => ?_⟩
  obtain ⟨es, hes, hread⟩ := (multiForm_decodes.accepted h).1 hfit
  exact ⟨es, hread, multi?_items hes hm hkey⟩

def plainText (s : String) : List Piece :=
  s.toList.map .char

/-- A body whose members come in another order, with one that is not known and without addresses. -/
def gappedMembers : List (List Piece × Tree) :=
  [(plainText "note", .list [.null]), (plainText "ttl", numeral '9'),
    (plainText "host", .text (plainText "a.com"))]

/-- The entries of a multi body: one without a type, and one that has nothing at all. -/
def gappedItems : List Tree :=
  [.object [(plainText "ips", .list [.text (plainText "192.0.2.1")]),
    (plainText "host", .text (plainText "a.com"))], .object []]

/-- A single body is read as the same members in order, its addresses have their default, and one
with something behind it is read as nothing; the entries of a multi body have their defaults. -/
theorem bodies_decode_gapped :
    let single := "\x7b\"note\":[null],\"ttl\":9,\"host\":\"a.com\"\x7d"
    let ordered := "\x7b \"host\" : \"a.com\", \"ttl\": 9 \x7d"
    let multi :=
      "\x7b\"dns\":[\x7b\"ips\":[\"192.0.2.1\"],\"host\":\"a.com\"\x7d,\x7b\x7d]\x7d"
    readSingle single = readSingle ordered
      ∧ (∃ a, readSingle single = some a ∧ a.ips = [])
      ∧ readSingle (single ++ ",") = none
      ∧ ∃ es, readMulti multi = answers es ∧ List.Forall₂ ReadAs gappedItems es := by
  intro single ordered multi
  obtain ⟨-, hsingle, -, hentries⟩ := bodies_decode
  have hwritten : (Tree.object gappedMembers).Written single.toList :=
    lexed_of_tokens (by decide +kernel)
  have hordered : (Tree.object (gappedMembers.drop 1).reverse).Written ordered.toList :=
    lexed_of_tokens (by decide +kernel)
  have hmulti : (Tree.object [(plainText "dns", .list gappedItems)]).Written multi.toList :=
    lexed_of_tokens (by decide +kernel)
  have hstep : Relation.EqvGen singleLayout.Step (.object gappedMembers)
      (.object (gappedMembers.drop 1).reverse) := by
    refine .trans _ (.object (gappedMembers.drop 1)) _ (.symm _ _ (.rel _ _ ?_)) (.rel _ _ ?_)
    · exact @Layout.Step.unknown _ [] _ _ "note" (by rfl) (by decide)
    · exact .permuted (List.reverse_perm _).symm
  have hfits : singleLayout.Fits (.object gappedMembers) := isSome_single?.1 (by rfl)
  have hlacks : ∀ m ∈ gappedMembers, ¬ readText m.1 = some "ips" := by decide +kernel
  refine ⟨hsingle.alike hstep hwritten hordered, ?_, hsingle.trailing hwritten ?_,
    hentries hmulti (isSome_multi?.1 (by rfl)) List.mem_cons_self (by rfl)⟩
  · exact hsingle.missing hwritten hfits _ (List.mem_cons_of_mem _ List.mem_cons_self) hlacks
  · exact fun h => absurd (h ',' List.mem_cons_self) (by decide)

end HttpDns.Reply
