import Mathlib.Data.List.Nodup
import WindowTally.Settings.Tree

/-!
# Trees of settings by their paths

What a tree of settings says is told here by what is at the end of each path of names. One
tree over another is then a matter of single paths: where the later tree has a table on the
way, or nothing, both have their say, and at the end of the path the later one goes first
(`at?_onto`). The same goes for any number of layers (`at?_under`). A value at the end of a
path has no say about other paths that neither lead through it nor are on its way.
-/
namespace WindowTally.Setting

variable {α : Type} {name : String} {es es' : List (String × Setting)}

/-! ## Entries -/

theorem lookup_assign (name other : String) (v : Setting) (es : List (String × Setting)) :
    lookup name (assign other v es) = if other = name then some v else lookup name es := by
  induction es with
  | nil => rfl
  | cons e es ih =>
    obtain ⟨n, w⟩ := e
    rw [assign]
    by_cases hn : n = other
    · subst hn
      rw [if_pos rfl, lookup, lookup]
      split <;> rfl
    · rw [if_neg hn, lookup, lookup, ih]
      by_cases hother : other = name
      · subst hother
        rw [if_neg hn, if_pos rfl, if_pos rfl]
      · rw [if_neg hother, if_neg hother]

theorem lookup_eq_none_iff : lookup name es = none ↔ name ∉ es.map (·.1) := by
  induction es with
  | nil => simp [lookup]
  | cons e es ih =>
    rw [lookup]
    by_cases hn : e.1 = name
    · simp [hn]
    · rw [if_neg hn, ih, List.map_cons, List.mem_cons, not_or]
      exact (and_iff_right (Ne.symm hn)).symm

theorem mem_of_lookup {v : Setting} (h : lookup name es = some v) : (name, v) ∈ es := by
  induction es with
  | nil => cases h
  | cons e es ih =>
    rw [lookup] at h
    split at h
    · next hn =>
      cases h
      rw [← hn]
      exact List.mem_cons_self
    · exact List.mem_cons_of_mem _ (ih h)

theorem lookup_of_mem (hes : (es.map (·.1)).Nodup) {v : Setting} (h : (name, v) ∈ es) :
    lookup name es = some v := by
  induction es with
  | nil => cases h
  | cons e es ih =>
    rw [List.map_cons, List.nodup_cons] at hes
    rw [lookup]
    rcases List.mem_cons.1 h with rfl | h
    · rw [if_pos rfl]
    · rw [if_neg, ih hes.2 h]
      intro hn
      exact hes.1 (hn ▸ List.mem_map_of_mem (f := (·.1)) h)

/-- A name that is given a value stays where it is, or comes last. -/
theorem names_assign {α : Type} (name : String) (v : α) (es : List (String × α)) :
    (assign name v es).map (·.1) =
      if name ∈ es.map (·.1) then es.map (·.1) else es.map (·.1) ++ [name] := by
  induction es with
  | nil => rfl
  | cons e es ih =>
    obtain ⟨n, w⟩ := e
    rw [assign]
    by_cases hn : n = name
    · rw [if_pos hn]
      simp [hn]
    · rw [if_neg hn, List.map_cons, ih]
      simp only [List.map_cons, List.mem_cons, Ne.symm hn, false_or]
      split <;> rfl

theorem nodup_assign {es : List (String × α)} (hes : (es.map (·.1)).Nodup) (name : String)
    (v : α) : ((assign name v es).map (·.1)).Nodup := by
  rw [names_assign]
  split
  · exact hes
  · next hnew => exact List.nodup_append.2 ⟨hes, List.nodup_singleton _, by grind⟩

theorem nodup_ontoAll (later : List (String × Setting)) (hes : (es.map (·.1)).Nodup) :
    ((ontoAll later es).map (·.1)).Nodup := by
  induction later generalizing es with
  | nil => rwa [ontoAll]
  | cons e later ih =>
    rw [ontoAll]
    split
    · exact ih (nodup_assign hes _ _)
    · exact ih (nodup_assign hes _ _)

/-- What is said later over what is said earlier, where both may say nothing. -/
def overlay : Option Setting → Option Setting → Option Setting
  | some v, some w => some (v.onto w)
  | some v, none => some v
  | none, w => w

@[simp]
theorem overlay_none (v : Option Setting) : overlay v none = v := by
  cases v <;> rfl

theorem lookup_ontoAll {later : List (String × Setting)} (hlater : (later.map (·.1)).Nodup)
    (name : String) (es : List (String × Setting)) :
    lookup name (ontoAll later es) = overlay (lookup name later) (lookup name es) := by
  induction later generalizing es with
  | nil => rw [ontoAll, lookup, overlay]
  | cons e later ih =>
    obtain ⟨n, v⟩ := e
    rw [List.map_cons, List.nodup_cons] at hlater
    rw [ontoAll, lookup]
    by_cases hn : n = name
    · subst hn
      have hgone := lookup_eq_none_iff.2 hlater.1
      cases hold : lookup n es with
      | none => simp only [ih hlater.2, hgone, lookup_assign, if_true, overlay]
      | some w => simp only [ih hlater.2, hgone, lookup_assign, if_true, overlay]
    · rw [if_neg hn]
      split
      · rw [ih hlater.2, lookup_assign, if_neg hn]
      · rw [ih hlater.2, lookup_assign, if_neg hn]

theorem lookup_onto {later : List (String × Setting)} (hlater : (later.map (·.1)).Nodup)
    (name : String) (earlier : Setting) : lookup name ((table later).onto earlier).entries =
      overlay (lookup name later) (lookup name earlier.entries) := by
  cases earlier with
  | table es =>
    rw [onto]
    exact lookup_ontoAll hlater name es
  | _ => simp [onto, entries, lookup]

/-! ## Paths -/

/-- What is at the end of a path. -/
def at? (t : Setting) : List String → Option Setting
  | [] => some t
  | name :: path => (lookup name t.entries).bind fun u => u.at? path

/-- There is nothing at the end of a path but a table that has no name twice. -/
def TableAt (t : Setting) (path : List String) : Prop :=
  ∀ u, t.at? path = some u → ∃ es, u = table es ∧ (es.map (·.1)).Nodup

/-- No table in the tree has a name twice. -/
def Distinct (t : Setting) : Prop :=
  ∀ path es, t.at? path = some (table es) → (es.map (·.1)).Nodup

variable {t later earlier v : Setting} {path q : List String}

/-- Where the later tree has only tables on the way, both have their say at the end of a path. -/
theorem at?_onto (h : ∀ r, r <+: path → r ≠ path → later.TableAt r) :
    (later.onto earlier).at? path = overlay (later.at? path) (earlier.at? path) := by
  induction path generalizing later earlier with
  | nil => rfl
  | cons name path ih =>
    obtain ⟨es, rfl, hes⟩ := h [] List.nil_prefix (List.cons_ne_nil _ _).symm later rfl
    have hlookup := lookup_onto hes name earlier
    rw [at?, at?, at?, hlookup, entries]
    cases hv : lookup name es with
    | none => rfl
    | some v =>
      cases hw : lookup name earlier.entries with
      | none => exact (overlay_none _).symm
      | some w =>
        refine ih fun r hr hne u hu => ?_
        refine h (name :: r) (List.cons_prefix_cons.2 ⟨rfl, hr⟩) (by simp [hne]) u ?_
        rw [at?, entries, hv]
        exact hu

theorem at?_append (t : Setting) (path q : List String) :
    t.at? (path ++ q) = (t.at? path).bind fun u => u.at? q := by
  induction path generalizing t with
  | nil => rfl
  | cons name path ih =>
    rw [List.cons_append, at?, at?, Option.bind_assoc]
    exact Option.bind_congr fun u _ => ih u

theorem exists_at?_of_append (h : (t.at? (path ++ q)).isSome) : ∃ u, t.at? path = some u := by
  rw [at?_append] at h
  obtain ⟨v, hv⟩ := Option.isSome_iff_exists.1 h
  obtain ⟨u, hu, -⟩ := Option.bind_eq_some_iff.1 hv
  exact ⟨u, hu⟩

theorem at?_concat {u : Setting} (hu : t.at? path = some u) (name : String) :
    t.at? (path ++ [name]) = lookup name u.entries := by
  rw [at?_append, hu, Option.bind_some, at?]
  exact Option.bind_fun_some _

/-- Where there is something beyond a path, there is a table at its end. -/
theorem tableAt_of_append (ht : t.Distinct) (h : (t.at? (path ++ name :: q)).isSome) :
    t.TableAt path := by
  intro u hu
  rw [at?_append, hu, Option.bind_some, at?] at h
  cases u with
  | table es => exact ⟨es, rfl, ht path es hu⟩
  | _ => cases h

/-- A table of the later tree is one of both, whatever the earlier tree has there. -/
theorem tableAt_onto (hlater : ∀ r, r <+: path → later.TableAt r)
    (hnames : ∀ es, earlier.at? path = some (table es) → (es.map (·.1)).Nodup)
    (hearlier : later.at? path = none → earlier.TableAt path) :
    (later.onto earlier).TableAt path := by
  intro u hu
  rw [at?_onto fun r hr _ => hlater r hr] at hu
  cases hv : later.at? path with
  | none =>
    rw [hv] at hu
    exact hearlier hv u hu
  | some v =>
    obtain ⟨es, rfl, hes⟩ := hlater path (List.prefix_refl _) v hv
    rw [hv] at hu
    cases hw : earlier.at? path with
    | none =>
      rw [hw] at hu
      cases hu
      exact ⟨es, rfl, hes⟩
    | some w =>
      rw [hw] at hu
      cases hu
      cases w with
      | table es' => exact ⟨ontoAll es es', by rw [onto], nodup_ontoAll es (hnames es' hw)⟩
      | _ => exact ⟨es, by simp [onto], hes⟩

/-- A value at the end of a path gives nothing at the end of another, nor on the way there. -/
theorem at?_atPath_of_apart (v : Setting) (h : ¬ path <+: q) (h' : ¬ q <+: path) :
    (atPath v path).at? q = none := by
  induction path generalizing q with
  | nil => exact absurd List.nil_prefix h
  | cons name path ih =>
    cases q with
    | nil => exact absurd List.nil_prefix h'
    | cons other q =>
      rw [atPath, at?, entries, lookup]
      split
      · next hname =>
        exact ih (fun hpre => h (List.cons_prefix_cons.2 ⟨hname, hpre⟩))
          fun hpre => h' (List.cons_prefix_cons.2 ⟨hname.symm, hpre⟩)
      · rfl

/-! ### Layers of trees -/

/-- A tree under layers, later ones over earlier ones. -/
def under (t : Setting) (layers : List Setting) : Setting :=
  layers.foldl (fun earlier later => later.onto earlier) t

variable {layers : List Setting}

theorem at?_under (h : ∀ later ∈ layers, ∀ r, r <+: path → r ≠ path → later.TableAt r) :
    (t.under layers).at? path =
      layers.foldl (fun w later => overlay (later.at? path) w) (t.at? path) := by
  induction layers generalizing t with
  | nil => rfl
  | cons later layers ih =>
    have hrest := ih (t := later.onto t) fun u hu => h u (List.mem_cons_of_mem _ hu)
    rw [under, List.foldl_cons, List.foldl_cons, ← at?_onto (h later List.mem_cons_self)]
    exact hrest

theorem tableAt_under (h : ∀ later ∈ layers, ∀ r, r <+: path → later.TableAt r)
    (ht : t.TableAt path) : (t.under layers).TableAt path := by
  induction layers generalizing t with
  | nil => exact ht
  | cons later layers ih =>
    refine ih (fun u hu => h u (List.mem_cons_of_mem _ hu))
      (tableAt_onto (h later List.mem_cons_self) (fun es hes => ?_) fun _ => ht)
    obtain ⟨es', heq, hnames⟩ := ht _ hes
    cases heq
    exact hnames

theorem isSome_overlay (v w : Option Setting) : (overlay v w).isSome = (v.isSome || w.isSome) := by
  cases v <;> cases w <;> rfl

/-- At the end of a path there is something just when a layer has something there. -/
theorem isSome_foldl_overlay (path : List String) (layers : List Setting) (w : Option Setting) :
    (layers.foldl (fun w later => overlay (later.at? path) w) w).isSome =
      (w.isSome || layers.any fun later => (later.at? path).isSome) := by
  induction layers generalizing w with
  | nil => simp
  | cons later layers ih =>
    rw [List.foldl_cons, ih, isSome_overlay, List.any_cons, Bool.or_comm (later.at? path).isSome,
      Bool.or_assoc]

theorem foldl_overlay_of_none (h : ∀ later ∈ layers, later.at? path = none) (w : Option Setting) :
    layers.foldl (fun w later => overlay (later.at? path) w) w = w := by
  induction layers with
  | nil => rfl
  | cons later layers ih =>
    rw [List.foldl_cons, h later List.mem_cons_self]
    exact ih fun u hu => h u (List.mem_cons_of_mem _ hu)

def isTable : Setting → Bool
  | .table _ => true
  | _ => false

theorem overlay_of_not_table (hv : v.isTable = false) (w : Option Setting) :
    overlay (some v) w = some v := by
  cases w with
  | none => rfl
  | some w =>
    cases v with
    | table es => cases hv
    | _ => simp [overlay, onto]

/-- What several layers say alike, and no table, is what they say together. -/
theorem foldl_overlay (hv : v.isTable = false)
    (h : ∀ later ∈ layers, ∀ u, later.at? path = some u → u = v) (w : Option Setting) :
    layers.foldl (fun w later => overlay (later.at? path) w) w =
      (layers.findSome? fun later => later.at? path).or w := by
  induction layers generalizing w with
  | nil => rfl
  | cons later layers ih =>
    have hrest := ih fun u hu => h u (List.mem_cons_of_mem _ hu)
    rw [List.foldl_cons, hrest, List.findSome?_cons]
    cases hu : later.at? path with
    | none => rfl
    | some u =>
      obtain rfl := h later List.mem_cons_self u hu
      rw [overlay_of_not_table hv, Option.some_or]
      cases hlast : layers.findSome? fun later => later.at? path with
      | none => rfl
      | some u' =>
        obtain ⟨later', hmem, hu'⟩ := List.exists_of_findSome?_eq_some hlast
        rw [h later' (List.mem_cons_of_mem _ hmem) u' hu', Option.some_or]

end WindowTally.Setting
