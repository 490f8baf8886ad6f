import WindowTally.Proofs.Trees
import WindowTally.Settings.Layers

/-!
# Names given once

No table in a tree that is read from a text has a name twice: not in what a settings file
holds (`distinct_of_file`), and not in what a variable says (`distinct_ofLine`), since a name
given again takes a new value in its place.
-/
namespace WindowTally.Setting

variable {t v : Setting} {es : List (String × Setting)}

theorem distinct_iff : t.Distinct ↔
    (t.entries.map (·.1)).Nodup ∧ ∀ name u, lookup name t.entries = some u → u.Distinct := by
  refine ⟨fun h => ⟨?_, fun name u hu path es hes => ?_⟩, fun ⟨hnames, hbelow⟩ path es hes => ?_⟩
  · cases t with
    | table es => exact h [] es rfl
    | _ => exact List.nodup_nil
  · refine h (name :: path) es ?_
    rw [at?, hu]
    exact hes
  · cases path with
    | nil =>
      cases hes
      exact hnames
    | cons name path =>
      obtain ⟨u, hu, hes⟩ := Option.bind_eq_some_iff.1 hes
      exact hbelow name u hu path es hes

theorem distinct_of_entries_eq_nil (h : t.entries = []) : t.Distinct := by
  rw [distinct_iff, h]
  exact ⟨List.nodup_nil, nofun⟩

theorem distinct_assign (hes : (table es).Distinct) (name : String) (hv : v.Distinct) :
    (table (assign name v es)).Distinct := by
  obtain ⟨hnames, hbelow⟩ := distinct_iff.1 hes
  refine distinct_iff.2 ⟨nodup_assign hnames _ _, fun other u hu => ?_⟩
  rw [entries, lookup_assign] at hu
  split at hu
  · cases hu
    exact hv
  · exact hbelow other u hu

theorem distinct_atPath (path : List String) (hv : v.Distinct) : (atPath v path).Distinct := by
  induction path with
  | nil => exact hv
  | cons name path ih =>
    refine distinct_iff.2 ⟨List.nodup_singleton _, fun other u hu => ?_⟩
    rw [atPath, entries, lookup] at hu
    split at hu
    · cases hu
      exact ih
    · cases hu

theorem tableAt_of_isTable (ht : t.Distinct) {path : List String}
    (h : ∀ u ∈ t.at? path, u.isTable = true) : t.TableAt path := by
  intro u hu
  cases u with
  | table es => exact ⟨es, rfl, ht path es hu⟩
  | _ => exact absurd (h _ hu) Bool.false_ne_true

/-! ## A file -/

theorem entries_ofScalar? {tag : Option (List Char)} {plain : Bool} {cs : List Char}
    (h : Yaml.ofScalar? tag plain cs = some t) : t.entries = [] := by
  have hplain : (Yaml.ofPlain cs).entries = [] := by
    unfold Yaml.ofPlain
    grind [entries]
  unfold Yaml.ofScalar? at h
  grind [entries, Option.map_eq_some_iff]

open Yaml in
mutual

theorem distinct_setting? : ∀ (node : Node) {t : Setting}, node.setting? = some t → t.Distinct
  | .scalar tag plain cs, t, h => by
    rw [Node.setting?] at h
    exact distinct_of_entries_eq_nil (entries_ofScalar? h)
  | .list tag items, t, h => by
    rw [Node.setting?] at h
    split at h
    · cases h
    · obtain ⟨ts, -, rfl⟩ := Option.map_eq_some_iff.1 h
      exact distinct_of_entries_eq_nil rfl
  | .map tag es, t, h => by
    rw [Node.setting?] at h
    split at h
    · cases h
    · obtain ⟨es', hes', rfl⟩ := Option.map_eq_some_iff.1 h
      exact distinct_entrySettings? es (distinct_of_entries_eq_nil rfl) hes'

theorem distinct_entrySettings? : ∀ (es : List (Node × Node))
    {earlier later : List (String × Setting)}, (table earlier).Distinct →
    Node.entrySettings? earlier es = some later → (table later).Distinct
  | [], earlier, later, hearlier, h => by
    rw [Node.entrySettings?] at h
    cases h
    exact hearlier
  | (k, v) :: es, earlier, later, hearlier, h => by
    rw [Node.entrySettings?] at h
    split at h
    · next name value hname hvalue =>
      exact distinct_entrySettings? es
        (distinct_assign hearlier _ (distinct_setting? v hvalue)) h
    · cases h

end

/-- A settings file holds a table, and no table in it has a name twice. -/
theorem distinct_of_file {file : Option String} (h : AppSettings.fileLayer file = some t) :
    t.TableAt [] ∧ t.Distinct := by
  have hnothing : (table []).Distinct := distinct_of_entries_eq_nil rfl
  have htable {es : List (String × Setting)} (hes : (table es).Distinct) (ht : t = table es) :
      t.TableAt [] ∧ t.Distinct := by
    subst ht
    refine ⟨fun u hu => ?_, hes⟩
    cases hu
    exact ⟨es, rfl, hes [] es rfl⟩
  cases file with
  | none =>
    cases h
    exact htable hnothing rfl
  | some text =>
    obtain ⟨node, -, h⟩ := Option.bind_eq_some_iff.1 h
    unfold Yaml.Node.table? at h
    split at h
    · cases h
    · split at h
      · obtain ⟨es, hes, rfl⟩ := Option.map_eq_some_iff.1 h
        exact htable (distinct_entrySettings? _ hnothing hes) rfl
      · cases h
        exact htable hnothing rfl
      · cases h

/-! ## A line -/

theorem entries_word (cs : List Char) : (Inline.word cs).entries = [] := by
  unfold Inline.word
  grind [entries]

/-- A table written in one line has no name twice, and no table in it has. -/
theorem distinct_inline (n : Nat) :
    (∀ cs r, Inline.value n cs = some r → r.1.Distinct) ∧
      ∀ es cs r, (table es).Distinct → Inline.entries n es cs = some r →
        (table r.1).Distinct := by
  induction n with
  | zero => exact ⟨nofun, nofun⟩
  | succ n ih =>
    obtain ⟨hvalue, hentries⟩ := ih
    have hnothing : (table []).Distinct := distinct_of_entries_eq_nil rfl
    refine ⟨fun cs r h => ?_, fun es cs r hes h => ?_⟩
    · rw [Inline.value] at h
      split at h
      all_goals obtain ⟨⟨v, rest⟩, hv, h⟩ := Option.bind_eq_some_iff.1 h; cases h
      · cases hv
        exact distinct_of_entries_eq_nil rfl
      · cases hv
        exact distinct_of_entries_eq_nil rfl
      · obtain ⟨w, hw, h⟩ := Option.map_eq_some_iff.1 hv
        cases h
        exact hentries [] _ w hnothing hw
      · obtain ⟨w, -, h⟩ := Option.map_eq_some_iff.1 hv
        cases h
        exact distinct_of_entries_eq_nil rfl
      · obtain ⟨w, -, h⟩ := Option.map_eq_some_iff.1 hv
        cases h
        exact distinct_of_entries_eq_nil rfl
      · cases hv
        exact distinct_of_entries_eq_nil rfl
      · cases hv
      · cases hv
        exact distinct_of_entries_eq_nil (entries_word _)
    · rw [Inline.entries.eq_def] at h
      split at h
      · cases h
      · cases h
        exact hes
      · next hn _ =>
        cases hn
        obtain ⟨⟨k, rest⟩, -, h⟩ := Option.bind_eq_some_iff.1 h
        dsimp only at h
        split at h
        · obtain ⟨⟨w, rest⟩, hw, h⟩ := Option.bind_eq_some_iff.1 h
          have hnext := distinct_assign hes k (hvalue _ _ hw)
          dsimp only at h
          split at h
          · exact hentries _ _ r hnext h
          · cases h
            exact hnext
          · cases h
        · cases h

theorem distinct_ofLine (s : String) : (ofLine s).Distinct := by
  unfold ofLine
  split
  · next v h => exact (distinct_inline _).1 _ _ h
  · exact distinct_of_entries_eq_nil rfl

end WindowTally.Setting
