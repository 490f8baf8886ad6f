import Mathlib.Data.List.Infix
import Mathlib.Tactic.MkIffOfInductiveProp
import WindowTally.Proofs.DistinctNames
import WindowTally.Proofs.SingleSettings

/-!
# Layers of settings

Settings are read from a settings file with the variables of the program over it. Each variable
is a small tree of its own here, and a layer over those before it (`setting_eq_under`).

**Clear settings (`Clear`).** Groups are tables, no two variables give the same single setting,
each single setting goes by one name in both layers, and what is chosen for it, the value of a
variable or else that of the file, can be read.

* `Clear.given_merged`: the tree of both layers gives for a setting just what is chosen for it.
* `Clear.exists_settings`: so the layers can be read, and each setting is as it is chosen, or
  its default.
* `given_perm`, `given_set`: the order of the variables makes no difference, and a variable of
  one setting says nothing about another.
* `ofLayers?_eq_none`: a setting under two names is refused, wherever the two names stand.
* `load_by_layers`: what this comes to for the settings that the program starts with.
-/
namespace WindowTally

open AppSettings (leaves)

/-! ## Variables as layers -/

/-- There are only tables on the way to a group of settings. -/
def Setting.Grouped (t : Setting) (group : List String) : Prop :=
  ∀ r ∈ group.inits, ∀ u ∈ t.at? r, u.isTable = true

instance (t : Setting) (group : List String) : Decidable (t.Grouped group) :=
  inferInstanceAs (Decidable (∀ r ∈ group.inits, ∀ u ∈ t.at? r, u.isTable = true))

namespace Environment

/-- The trees that the variables describe, one by one. -/
def layers (e : Environment) : List Setting :=
  e.values.filterMap fun v => (path? v.1).map fun path => Setting.atPath (Setting.ofLine v.2) path

/-- What the variables give for a single setting. -/
def given (e : Environment) (l : Leaf) : Option Setting := e.layers.findSome? l.given

theorem setting_eq_under (e : Environment) : e.setting = (Setting.table []).under e.layers := by
  rw [layers, Setting.under, List.foldl_filterMap, setting]
  congr
  funext tree v
  cases path? v.1 <;> rfl

theorem distinct_of_mem_layers {e : Environment} {t : Setting} (ht : t ∈ e.layers) :
    t.Distinct := by
  obtain ⟨v, -, ht⟩ := List.mem_filterMap.1 ht
  obtain ⟨path, -, rfl⟩ := Option.map_eq_some_iff.1 ht
  exact Setting.distinct_atPath path (Setting.distinct_ofLine v.2)

end Environment

/-- What the variables say about a single setting, or else what a file says. -/
def Leaf.chosen (l : Leaf) (tree : Setting) (e : Environment) : Option Setting :=
  (e.given l).or (l.given tree)

/-- Variables give groups as tables, and so does the file those groups that no variable gives; no
two variables give the same setting; a setting is given under one name at most; and what is chosen
for it can be read. -/
@[mk_iff]
structure Clear (tree : Setting) (e : Environment) : Prop where
  grouped : ∀ t ∈ e.layers, ∀ l ∈ leaves, t.Grouped l.group
  groupedFile : ∀ l ∈ leaves, ∀ r ∈ l.group.inits, (∀ t ∈ e.layers, t.at? r = none) →
    ∀ u ∈ tree.at? r, u.isTable = true
  apart : e.layers.Pairwise fun t u => ∀ l ∈ leaves, l.given t = none ∨ l.given u = none
  oneName : ∀ l ∈ leaves, ∀ n ∈ l.names, ∀ m ∈ l.names, ∀ t ∈ tree :: e.layers,
    ∀ u ∈ tree :: e.layers, (t.at? (l.group ++ [n])).isSome → (u.at? (l.group ++ [m])).isSome →
    n = m
  readable : ∀ l ∈ leaves, ∀ v ∈ l.chosen tree e, (l.read v).isSome

instance (tree : Setting) (e : Environment) : Decidable (Clear tree e) :=
  decidable_of_iff' _ (clear_iff tree e)

/-! ## The tree of both layers -/

section

variable {tree : Setting} {e : Environment} {l : Leaf} {path r : List String}

section
variable (hgrouped : ∀ t ∈ e.layers, t.Grouped l.group)
include hgrouped

theorem tableAt_layer {t : Setting} (ht : t ∈ e.layers) (hr : r <+: l.group) : t.TableAt r :=
  Setting.tableAt_of_isTable (Environment.distinct_of_mem_layers ht)
    (hgrouped t ht r ((List.mem_inits _ _).2 hr))

theorem tableAt_setting (hr : r <+: l.group) : e.setting.TableAt r := by
  rw [Environment.setting_eq_under]
  refine Setting.tableAt_under (fun t ht r' hr' => tableAt_layer hgrouped ht (hr'.trans hr))
    fun u hu => ?_
  cases r with
  | nil =>
    cases hu
    exact ⟨[], rfl, List.nodup_nil⟩
  | cons name r => cases hu

theorem at?_setting (hpath : ∀ r, r <+: path → r ≠ path → r <+: l.group) : e.setting.at? path =
    e.layers.foldl (fun w later => Setting.overlay (later.at? path) w)
      ((Setting.table []).at? path) := by
  rw [Environment.setting_eq_under]
  exact Setting.at?_under fun t ht r hr hne => tableAt_layer hgrouped ht (hpath r hr hne)

theorem at?_merged (name : String) : (e.setting.onto tree).at? (l.group ++ [name]) =
    Setting.overlay (e.layers.foldl
      (fun w later => Setting.overlay (later.at? (l.group ++ [name])) w) none)
      (tree.at? (l.group ++ [name])) := by
  have hup : ∀ r, r <+: l.group ++ [name] → r ≠ l.group ++ [name] → r <+: l.group :=
    fun r hr hne => (List.prefix_concat_iff.1 hr).resolve_left hne
  have hnothing : (Setting.table []).at? (l.group ++ [name]) = none := by
    cases l.group <;> rfl
  rw [Setting.at?_onto fun r hr hne => tableAt_setting hgrouped (hup r hr hne),
    at?_setting hgrouped hup, hnothing]

/-- Both layers together give just the names that one of the trees gives. -/
theorem isSome_merged (name : String) :
    ((e.setting.onto tree).at? (l.group ++ [name])).isSome ↔
      ∃ t ∈ tree :: e.layers, (t.at? (l.group ++ [name])).isSome := by
  rw [at?_merged hgrouped, Setting.isSome_overlay, Setting.isSome_foldl_overlay]
  simp [or_comm]

/-- A group is a table in both layers together if it is one in the file, or if the file has no say
in it. -/
theorem tableAt_merged (htree : tree.Distinct) (hr : r <+: l.group)
    (hfile : (∀ t ∈ e.layers, t.at? r = none) → tree.TableAt r) :
    (e.setting.onto tree).TableAt r := by
  refine Setting.tableAt_onto (fun _ hr' => tableAt_setting hgrouped (hr'.trans hr))
    (fun es hes => htree r es hes) fun hnone => hfile fun t ht => ?_
  have hquiet := congrArg Option.isSome hnone
  rw [at?_setting hgrouped fun r' hr' _ => hr'.trans hr, Setting.isSome_foldl_overlay,
    Option.isSome_none, Bool.or_eq_false_iff, List.any_eq_false] at hquiet
  exact Option.not_isSome_iff_eq_none.1 (hquiet.2 t ht)

/-- A single setting under two names is refused. -/
theorem ofLayers?_eq_none (htree : tree.Distinct) (hl : l ∈ leaves) {n m : String}
    (hn : n ∈ l.names) (hm : m ∈ l.names) (hne : n ≠ m) {t u : Setting} (ht : t ∈ tree :: e.layers)
    (hu : u ∈ tree :: e.layers) (hgiven : (t.at? (l.group ++ [n])).isSome)
    (hgiven' : (u.at? (l.group ++ [m])).isSome) : AppSettings.ofLayers? tree e = none := by
  refine AppSettings.setting_eq_none_of_two l hl (fun r hr => ?_) hn hm hne
    ((isSome_merged hgrouped n).2 ⟨t, ht, hgiven⟩) ((isSome_merged hgrouped m).2 ⟨u, hu, hgiven'⟩)
  refine tableAt_merged hgrouped htree hr fun hquiet => ?_
  obtain ⟨q, hq⟩ := hr
  rw [← hq, List.append_assoc] at hgiven
  -- Where no variable gives the group, it is the file that gives the setting.
  rcases List.mem_cons.1 ht with rfl | ht
  · cases q with
    | nil => exact Setting.tableAt_of_append htree hgiven
    | cons name q => exact Setting.tableAt_of_append htree hgiven
  · obtain ⟨v, hv⟩ := Setting.exists_at?_of_append hgiven
    rw [hquiet t ht] at hv
    cases hv

end

theorem findSome?_eq_some_of_mem {α β : Type} {f : α → Option β} {xs : List α} {x : α} {b : β}
    (hx : x ∈ xs) (hb : f x = some b) (hall : ∀ y ∈ xs, ∀ c, f y = some c → c = b) :
    xs.findSome? f = some b := by
  cases hfound : xs.findSome? f with
  | none =>
    rw [List.findSome?_eq_none_iff.1 hfound x hx] at hb
    cases hb
  | some c =>
    obtain ⟨y, hy, hc⟩ := List.exists_of_findSome?_eq_some hfound
    rw [hall y hy c hc]

/-- Where variables give a setting clearly, they all give the same value under the same name. -/
theorem Clear.same (h : Clear tree e) (hl : l ∈ leaves) {n m : String} (hn : n ∈ l.names)
    (hm : m ∈ l.names) {t u v w : Setting} (ht : t ∈ e.layers) (hu : u ∈ e.layers)
    (hv : t.at? (l.group ++ [n]) = some v) (hw : u.at? (l.group ++ [m]) = some w) : w = v := by
  obtain rfl := h.oneName l hl n hn m hm t (List.mem_cons_of_mem _ ht) u
    (List.mem_cons_of_mem _ hu) (by rw [hv]; rfl) (by rw [hw]; rfl)
  by_cases htu : t = u
  · subst htu
    exact Option.some.inj (hw.symm.trans hv)
  · have hgiven {t v : Setting} (hv : t.at? (l.group ++ [n]) = some v) : l.given t ≠ none :=
      fun hnone => by
        rw [List.findSome?_eq_none_iff.1 hnone n hn] at hv
        cases hv
    have hsymm : Std.Symm fun t u : Setting => ∀ l ∈ leaves, l.given t = none ∨ l.given u = none :=
      ⟨fun t u h l hl => (h l hl).symm⟩
    rcases h.apart.forall ht hu htu l hl with hnone | hnone
    · exact absurd hnone (hgiven hv)
    · exact absurd hnone (hgiven hw)

/-- Where no variable gives a setting, both layers together give it as the file does. -/
theorem given_merged_of_silent (hgrouped : ∀ t ∈ e.layers, t.Grouped l.group)
    (hset : e.given l = none) : l.given (e.setting.onto tree) = l.given tree := by
  have hname {n : String} (hn : n ∈ l.names) :
      (e.setting.onto tree).at? (l.group ++ [n]) = tree.at? (l.group ++ [n]) := by
    have hquiet : ∀ t ∈ e.layers, t.at? (l.group ++ [n]) = none := fun t ht =>
      List.findSome?_eq_none_iff.1 (List.findSome?_eq_none_iff.1 hset t ht) n hn
    rw [at?_merged hgrouped, Setting.foldl_overlay_of_none hquiet, Setting.overlay]
  rw [Leaf.given, Slot.givenAt, ← List.head?_filterMap,
    List.filterMap_congr fun n hn => hname hn, List.head?_filterMap]
  rfl

/-- Where a variable gives a setting, both layers together give it as the variable does. -/
theorem Clear.given_merged_of_set (h : Clear tree e) (hl : l ∈ leaves) {v : Setting}
    (hset : e.given l = some v) : l.given (e.setting.onto tree) = some v := by
  have hgrouped : ∀ t ∈ e.layers, t.Grouped l.group := fun t ht => h.grouped t ht l hl
  obtain ⟨t, ht, hv⟩ := List.exists_of_findSome?_eq_some hset
  obtain ⟨n, hn, hv⟩ := List.exists_of_findSome?_eq_some hv
  have hread := h.readable l hl v (by rw [Leaf.chosen, hset]; rfl)
  have htable : v.isTable = false := by
    cases v with
    | table es =>
      rw [AppSettings.read_table hl] at hread
      cases hread
    | _ => rfl
  have hname {m : String} (hm : m ∈ l.names) :
      (e.setting.onto tree).at? (l.group ++ [m]) = Setting.overlay
        (e.layers.findSome? fun later => later.at? (l.group ++ [m]))
        (tree.at? (l.group ++ [m])) := by
    rw [at?_merged hgrouped, Setting.foldl_overlay htable fun u hu w hw =>
      h.same hl hn hm ht hu hv hw, Option.or_none]
  refine findSome?_eq_some_of_mem hn ?_ fun m hm w hw => ?_
  · have hown := findSome?_eq_some_of_mem ht hv fun u hu w hw => h.same hl hn hn ht hu hv hw
    rw [hname hn, hown, Setting.overlay_of_not_table htable]
  · rw [hname hm] at hw
    cases hother : e.layers.findSome? fun later => later.at? (l.group ++ [m]) with
    | some u =>
      obtain ⟨layer, hlayer, hu⟩ := List.exists_of_findSome?_eq_some hother
      obtain rfl := h.same hl hn hm ht hlayer hv hu
      rw [hother, Setting.overlay_of_not_table htable] at hw
      exact (Option.some.inj hw).symm
    | none =>
      -- The file would give the setting under another name.
      rw [hother, Setting.overlay] at hw
      obtain rfl := h.oneName l hl n hn m hm t (List.mem_cons_of_mem _ ht) tree
        List.mem_cons_self (by rw [hv]; rfl) (by rw [hw]; rfl)
      rw [List.findSome?_eq_none_iff.1 hother t ht] at hv
      cases hv

/-- Both layers together give what is chosen for a setting. -/
theorem Clear.given_merged (h : Clear tree e) (hl : l ∈ leaves) :
    l.given (e.setting.onto tree) = l.chosen tree e := by
  rw [Leaf.chosen]
  cases hset : e.given l with
  | none => exact given_merged_of_silent (fun t ht => h.grouped t ht l hl) hset
  | some v => exact h.given_merged_of_set hl hset

theorem Clear.legible (h : Clear tree e) (hl : l ∈ leaves) :
    l.Legible l.group (e.setting.onto tree) := by
  have hgrouped : ∀ t ∈ e.layers, t.Grouped l.group := fun t ht => h.grouped t ht l hl
  constructor
  case oneName =>
    intro n hn m hm hgiven hgiven'
    obtain ⟨t, ht, hgiven⟩ := (isSome_merged hgrouped n).1 hgiven
    obtain ⟨u, hu, hgiven'⟩ := (isSome_merged hgrouped m).1 hgiven'
    exact h.oneName l hl n hn m hm t ht u hu hgiven hgiven'
  case reads =>
    intro v hv
    exact h.readable l hl v ((h.given_merged hl).symm.trans hv)

/-- Settings that are given clearly can be read, each one as it is chosen. -/
theorem Clear.exists_settings (h : Clear tree e) (htree : tree.Distinct) :
    ∃ s, AppSettings.ofLayers? tree e = some s ∧
      ∀ l ∈ leaves, l.get s = ((l.chosen tree e).bind l.read).getD (l.get {}) := by
  have htables : ∀ l ∈ leaves, ∀ r, r <+: l.group → (e.setting.onto tree).TableAt r :=
    fun l hl r hr => tableAt_merged (fun t ht => h.grouped t ht l hl) htree hr fun hquiet =>
      Setting.tableAt_of_isTable htree (h.groupedFile l hl r ((List.mem_inits _ _).2 hr) hquiet)
  obtain ⟨s, hs, hget⟩ := AppSettings.exists_setting htables fun l hl => h.legible hl
  exact ⟨s, hs, fun l hl => by rw [hget l hl, h.given_merged hl]⟩

end

/-! ## Other variables -/

theorem findSome?_perm {α β : Type} {f : α → Option β} {xs ys : List α} (h : xs.Perm ys)
    (hone : xs.Pairwise fun x y => f x = none ∨ f y = none) : xs.findSome? f = ys.findSome? f := by
  induction h with
  | nil => rfl
  | cons x _ ih => rw [List.findSome?_cons, List.findSome?_cons, ih (List.pairwise_cons.1 hone).2]
  | swap x y xs =>
    have hxy := (List.pairwise_cons.1 hone).1 x List.mem_cons_self
    rw [List.findSome?_cons, List.findSome?_cons, List.findSome?_cons, List.findSome?_cons]
    rcases hxy with hnone | hnone
    · rw [hnone]
    · rw [hnone]
  | trans hxy _ ih ih' => exact (ih hone).trans (ih' (hone.perm hxy fun h => h.symm))

namespace Environment

variable {tree : Setting} {e e' : Environment} {l k : Leaf}

theorem given_eq_findSome? (e : Environment) (l : Leaf) : e.given l = e.values.findSome? fun v =>
    (path? v.1).bind fun path => l.given (Setting.atPath (Setting.ofLine v.2) path) := by
  rw [given, layers, ← List.head?_filterMap, List.filterMap_filterMap, List.head?_filterMap]
  refine congrArg (List.findSome? · e.values) (funext fun v => ?_)
  exact Option.bind_map

theorem layers_perm (h : e'.values.Perm e.values) : e'.layers.Perm e.layers := h.filterMap _

/-- Variables in another order give the same. -/
theorem given_perm (h : Clear tree e) (hperm : e'.values.Perm e.values) (hl : l ∈ leaves) :
    e'.given l = e.given l :=
  (findSome?_perm (layers_perm hperm).symm (h.apart.imp fun hapart => hapart l hl)).symm

theorem clear_perm (h : Clear tree e) (hperm : e'.values.Perm e.values) : Clear tree e' := by
  have hlayer {t : Setting} : t ∈ e'.layers ↔ t ∈ e.layers := (layers_perm hperm).mem_iff
  have hmem {t : Setting} (ht : t ∈ tree :: e'.layers) : t ∈ tree :: e.layers :=
    ((layers_perm hperm).cons tree).subset ht
  constructor
  case grouped => exact fun t ht => h.grouped t (hlayer.1 ht)
  case groupedFile =>
    exact fun l hl r hr hquiet => h.groupedFile l hl r hr fun t ht => hquiet t (hlayer.2 ht)
  case apart => exact h.apart.perm (layers_perm hperm).symm fun h l hl => (h l hl).symm
  case oneName =>
    exact fun l hl n hn m hm t ht u hu => h.oneName l hl n hn m hm t (hmem ht) u (hmem hu)
  case readable =>
    intro l hl v hv
    rw [Leaf.chosen, given_perm h hperm hl] at hv
    exact h.readable l hl v hv

theorem findSome?_assign {α β : Type} {f : String × α → Option β} {name : String}
    (hf : ∀ v, f (name, v) = none) (v : α) (es : List (String × α)) :
    (Setting.assign name v es).findSome? f = es.findSome? f := by
  induction es with
  | nil => rw [Setting.assign, List.findSome?_singleton, hf, List.findSome?_nil]
  | cons e es ih =>
    obtain ⟨n, w⟩ := e
    rw [Setting.assign]
    split
    · next hn =>
      subst hn
      rw [List.findSome?_cons, List.findSome?_cons, hf, hf]
    · rw [List.findSome?_cons, List.findSome?_cons, ih]

/-- The path to a single setting leads to no other one, and past none. -/
theorem apart_of_ne : ∀ k ∈ leaves, ∀ l ∈ leaves, (l.group = k.group → l.names ≠ k.names) →
    ∀ n ∈ k.names, ∀ m ∈ l.names, ¬ k.group ++ [n] <+: l.group ++ [m] := by
  decide +kernel

/-- A variable of one setting gives no other one. -/
theorem given_set (hk : k ∈ leaves) (hl : l ∈ leaves)
    (hother : l.group = k.group → l.names ≠ k.names) {n name : String} (hn : n ∈ k.names)
    (hpath : path? name = some (k.group ++ [n])) (value : String) :
    (e.set name value).given l = e.given l := by
  rw [given_eq_findSome?, given_eq_findSome?]
  refine findSome?_assign (fun v => ?_) value e.values
  rw [hpath, Option.bind_some]
  refine List.findSome?_eq_none_iff.2 fun m hm => Setting.at?_atPath_of_apart _ ?_ ?_
  · exact apart_of_ne k hk l hl hother n hn m hm
  · exact apart_of_ne l hl k hk (fun hg hns => hother hg.symm hns.symm) m hm n hn

end Environment

/-! ## What is loaded -/

namespace AppSettings

theorem check_ne_unreadable (s : AppSettings) : s.check ≠ .error .unreadable := by
  unfold check Bindings.check
  grind

theorem load_of_ofLayers? {file : Option String} {tree : Setting} {e : Environment}
    {s : AppSettings} (hfile : fileLayer file = some tree) (hs : ofLayers? tree e = some s) :
    load file e = s.accepted := by
  rw [load, hfile, Option.bind_some, hs]

/-- Layers that choose the same for each single setting are loaded alike, whatever else they say. -/
theorem load_congr {file file' : Option String} {tree tree' : Setting} {e e' : Environment}
    (hfile : fileLayer file = some tree) (hfile' : fileLayer file' = some tree')
    (hclear : Clear tree e) (hclear' : Clear tree' e')
    (hchosen : ∀ l ∈ leaves, l.chosen tree' e' = l.chosen tree e) :
    load file' e' = load file e := by
  obtain ⟨-, htree⟩ := Setting.distinct_of_file hfile
  obtain ⟨-, htree'⟩ := Setting.distinct_of_file hfile'
  obtain ⟨s, hs, hget⟩ := hclear.exists_settings htree
  obtain ⟨s', hs', hget'⟩ := hclear'.exists_settings htree'
  have heq : s' = s := by
    apply ext_leaves
    intro l hl
    rw [hget' l hl, hget l hl, hchosen l hl]
  rw [load_of_ofLayers? hfile' hs', load_of_ofLayers? hfile hs, heq]

/-- Where a file and variables give each single setting clearly, they describe settings in which
each one is what a variable says, or what the file says, or its default; `load` has them just if
they break no rule, and otherwise says which. The order of the variables makes no difference, and
neither does anything that gives no setting. Two pairs of layers that say the same of a setting
agree on it whatever they say of others, and a variable of one setting changes no other. A setting
under two names is refused, whichever layers the names stand in. -/
theorem load_by_layers {file : Option String} {tree : Setting} {e : Environment}
    (hfile : fileLayer file = some tree) :
    (Clear tree e → ∃ s, ofLayers? tree e = some s ∧
      (∀ l ∈ leaves, l.get s = ((l.chosen tree e).bind l.read).getD (l.get {})) ∧
      (s.check = .ok () → load file e = .ok s) ∧
      (∀ fault, s.check = .error fault → fault ≠ .unreadable ∧ load file e = .error fault) ∧
      (∀ e', e'.values.Perm e.values → load file e' = load file e) ∧
      (∀ file' tree' e', fileLayer file' = some tree' → Clear tree' e' →
        (∀ l ∈ leaves, l.chosen tree' e' = l.chosen tree e) → load file' e' = load file e) ∧
      (∀ file' tree' e', fileLayer file' = some tree' → Clear tree' e' →
        ∃ s', ofLayers? tree' e' = some s' ∧ ∀ l ∈ leaves,
          l.given tree' = l.given tree → e'.given l = e.given l → l.get s' = l.get s) ∧
      (∀ k ∈ leaves, ∀ n ∈ k.names, ∀ name value,
        Environment.path? name = some (k.group ++ [n]) → Clear tree (e.set name value) →
        ∃ s', ofLayers? tree (e.set name value) = some s' ∧ ∀ l ∈ leaves,
          (l.group = k.group → l.names ≠ k.names) → l.get s' = l.get s)) ∧
    (∀ l ∈ leaves, (∀ t ∈ e.layers, t.Grouped l.group) →
      ∀ n ∈ l.names, ∀ m ∈ l.names, n ≠ m → ∀ t ∈ tree :: e.layers, ∀ u ∈ tree :: e.layers,
        (t.at? (l.group ++ [n])).isSome → (u.at? (l.group ++ [m])).isSome →
        load file e = .error .unreadable) := by
  obtain ⟨-, htree⟩ := Setting.distinct_of_file hfile
  constructor
  · intro hclear
    obtain ⟨s, hs, hget⟩ := hclear.exists_settings htree
    have hload := load_of_ofLayers? hfile hs
    refine ⟨s, hs, hget, ?_, ?_, ?_, ?_, ?_, ?_⟩
    · intro hok
      rw [hload, accepted, hok]
      rfl
    · intro fault hfault
      constructor
      · rintro rfl
        exact check_ne_unreadable s hfault
      · rw [hload, accepted, hfault]
        rfl
    · intro e' hperm
      apply load_congr hfile hfile hclear (Environment.clear_perm hclear hperm)
      intro l hl
      rw [Leaf.chosen, Leaf.chosen, Environment.given_perm hclear hperm hl]
    · intro file' tree' e' hfile' hclear' hchosen
      exact load_congr hfile hfile' hclear hclear' hchosen
    · intro file' tree' e' hfile' hclear'
      obtain ⟨-, htree'⟩ := Setting.distinct_of_file hfile'
      obtain ⟨s', hs', hget'⟩ := hclear'.exists_settings htree'
      refine ⟨s', hs', ?_⟩
      intro l hl hgiven hgiven'
      rw [hget' l hl, hget l hl, Leaf.chosen, Leaf.chosen, hgiven, hgiven']
    · intro k hk n hn name value hpath hclear'
      obtain ⟨s', hs', hget'⟩ := hclear'.exists_settings htree
      refine ⟨s', hs', ?_⟩
      intro l hl hother
      rw [hget' l hl, hget l hl, Leaf.chosen, Leaf.chosen,
        Environment.given_set hk hl hother hn hpath]
  · intro l hl hgrouped n hn m hm hne t ht u hu hgiven hgiven'
    have hnone := ofLayers?_eq_none hgrouped htree hl hn hm hne ht hu hgiven hgiven'
    rw [load, hfile, Option.bind_some, hnone]

/-- A settings file with a name that no setting has. -/
def sampleFile : String :=
  "processor:\n  windowLengthMs: 10000\n  egress:\n    buffer_size: 8\n  color: blue\n"

/-- Variables of two settings, and one of none. -/
def sampleVariables : Environment :=
  ⟨[("WORDCOUNT_PROCESSOR__EGRESS__MAX_RETRIES", "7"), ("WORDCOUNT_PLANET", "mars"),
    ("WORDCOUNT_BINDINGS__OUTPUT", "totals")]⟩

/-- Both layers have their say, in one group too; a variable with another name for a setting that
the file has is refused. -/
theorem load_by_layers_of_sample :
    load (some sampleFile) sampleVariables = .ok {
      processing := { windowLength := 10000, delivery := { maxRetries := 7, bufferSize := 8 } }
      bindings := { output := "totals" } } ∧
    load (some sampleFile) ⟨[("WORDCOUNT_PROCESSOR__WINDOW_LENGTH_MS", "20000")]⟩ =
      .error .unreadable := by
  obtain ⟨tree, hfile⟩ := Option.isSome_iff_exists.1
    (by decide +kernel : (fileLayer (some sampleFile)).isSome)
  constructor
  · have hclear := (by decide +kernel : ∀ tree ∈ fileLayer (some sampleFile),
      Clear tree sampleVariables) tree hfile
    obtain ⟨s, hs, -, hok, -⟩ := (load_by_layers hfile).1 hclear
    have hread := (by decide +kernel : ∀ tree ∈ fileLayer (some sampleFile),
      ofLayers? tree sampleVariables = some {
        processing := { windowLength := 10000, delivery := { maxRetries := 7, bufferSize := 8 } }
        bindings := { output := "totals" } }) tree hfile
    obtain rfl := Option.some.inj (hs.symm.trans hread)
    exact hok (by decide +kernel)
  · let length : Leaf := Slot.within (.ofKind ["window_length_ms", "windowLengthMs"] .millis
      (·.windowLength)) ["processor"] (·.processing)
    let e : Environment := ⟨[("WORDCOUNT_PROCESSOR__WINDOW_LENGTH_MS", "20000")]⟩
    obtain ⟨u, hu, hgiven⟩ : ∃ u ∈ e.layers, (u.at? ["processor", "window_length_ms"]).isSome := by
      decide +kernel
    have hgrouped : ∀ t ∈ e.layers, t.Grouped length.group := by decide +kernel
    have hgiven' := (by decide +kernel : ∀ tree ∈ fileLayer (some sampleFile),
      (tree.at? ["processor", "windowLengthMs"]).isSome) tree hfile
    exact (load_by_layers hfile).2 length List.mem_cons_self hgrouped "window_length_ms"
      (by decide) "windowLengthMs" (by decide) (by decide) u (List.mem_cons_of_mem _ hu) tree
      List.mem_cons_self hgiven hgiven'

end AppSettings

end WindowTally
