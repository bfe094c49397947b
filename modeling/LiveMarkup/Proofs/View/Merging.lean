import LiveMarkup.Proofs.View.Display

/-!
# Merging models

New data overrides a model entry by entry, on every level on which both hold maps, and the names
keep their order.  What was merged once is there, so that merging it again changes nothing, and a
view that is updated again with the same data shows what it showed.

Main definitions:

- `Value.isKeyed`, `Scope.isKeyed`: whether the maps that a merge reads bind each name once.
- `Scope.inner?`: the map at the end of a path of names.

Main results:

- `Value.keys_mergeEntries`, `Value.lookup_mergeEntries`: the names and the values after a merge.
- `Value.merge_merge_self`, `Scope.merge_merge_self`: a second merge changes nothing.
- `Scope.isKeyed_merge`: a merge binds each name once.
- `Scope.inner?_merge`: a merge on an inner level is a merge of the inner maps.
- `View.update_update`: a second update with the same data.
- `View.merge_overrides_and_repeats`: both, for models and for views.
-/

namespace LiveMarkup

/-! ## Values -/

namespace Value

theorem entries?_eq_some_iff {v : Value} {entries : Scope} :
    v.entries? = some entries ↔ v = .map entries := by
  cases v <;> simp [entries?]

mutual

/-- What holds of a map if it holds of the values in it, and holds of all that is no map, holds of
all values. -/
theorem map_induction {P : Value → Prop}
    (map : ∀ entries : Scope, (∀ entry ∈ entries, P entry.2) → P (.map entries))
    (whole : ∀ v : Value, v.entries? = none → P v) : ∀ v : Value, P v
  | .map entries => map entries (map_induction_entries map whole entries)
  | .null => whole _ rfl
  | .bool _ => whole _ rfl
  | .int _ => whole _ rfl
  | .float _ => whole _ rfl
  | .str _ => whole _ rfl
  | .list _ => whole _ rfl
  | .helper _ => whole _ rfl

theorem map_induction_entries {P : Value → Prop}
    (map : ∀ entries : Scope, (∀ entry ∈ entries, P entry.2) → P (.map entries))
    (whole : ∀ v : Value, v.entries? = none → P v) :
    ∀ entries : List (String × Value), ∀ entry ∈ entries, P entry.2
  | [], _, hmem => by cases hmem
  | (_, v) :: rest, entry, hmem => by
    cases hmem with
    | head => exact map_induction map whole v
    | tail _ hmem => exact map_induction_entries map whole rest entry hmem

end

end Value

/-! ## Names bound once -/

mutual

/-- Whether the maps that a merge of a value reads bind each name once.  A merge does not look into
lists. -/
def Value.isKeyed : Value → Bool
  | .map entries => Value.isKeyedAll entries
  | _ => true

/-- Whether entries, and the maps among their values, bind each name once. -/
def Value.isKeyedAll : List (String × Value) → Bool
  | [] => true
  | (name, v) :: rest => decide (name ∉ Entries.keys rest) && v.isKeyed && Value.isKeyedAll rest

end

/-- Whether a scope, and the maps within it, bind each name once. -/
def Scope.isKeyed (scope : Scope) : Bool :=
  Value.isKeyedAll scope

namespace Value

variable {entries held given : Scope} {name : String} {v : Value} {old : Option Value}

theorem isKeyedAll_iff :
    isKeyedAll entries = true ↔
      (Entries.keys entries).Nodup ∧ ∀ entry ∈ entries, entry.2.isKeyed = true := by
  induction entries with
  | nil => simp [isKeyedAll, Entries.keys]
  | cons entry rest ih =>
    obtain ⟨name, v⟩ := entry
    simp only [isKeyedAll, Bool.and_eq_true, decide_eq_true_eq, ih, Entries.keys_cons,
      List.nodup_cons, List.forall_mem_cons]
    constructor
    · rintro ⟨⟨hnew, hv⟩, hnodup, hrest⟩
      exact ⟨⟨hnew, hnodup⟩, hv, hrest⟩
    · rintro ⟨⟨hnew, hnodup⟩, hv, hrest⟩
      exact ⟨⟨hnew, hv⟩, hnodup, hrest⟩

/-! ## One level of a merge -/

@[simp]
theorem merge_map (held given : Scope) :
    merge (some (.map held)) (.map given) = .map (mergeEntries held given) := by
  rw [merge]

/-- What is no map replaces the old value. -/
theorem merge_whole (h : v.entries? = none) : merge old v = v := by
  cases v with
  | map given => cases h
  | _ => rfl

/-- What was no map is replaced. -/
theorem merge_of_not_map (h : ∀ held, old ≠ some (.map held)) : merge old v = v := by
  cases v with
  | map given =>
    rw [merge]
    exact h
  | _ => rfl

/-- The names of the old entries keep their order, and the new names follow in theirs. -/
theorem keys_mergeEntries (hnodup : (Entries.keys given).Nodup) :
    Entries.keys (mergeEntries held given) =
      Entries.keys held ++ (Entries.keys given).filter (· ∉ Entries.keys held) := by
  induction given generalizing held with
  | nil => simp [mergeEntries, Entries.keys]
  | cons entry rest ih =>
    obtain ⟨name, v⟩ := entry
    obtain ⟨hnew, hrest⟩ := List.nodup_cons.mp hnodup
    rw [mergeEntries, ih hrest, Entries.keys_insert, Entries.keys_cons, List.filter_cons]
    by_cases hname : name ∈ Entries.keys held
    · simp [hname]
    · have hfilter : (Entries.keys rest).filter (· ∉ Entries.keys held ++ [name]) =
          (Entries.keys rest).filter (· ∉ Entries.keys held) := by
        refine List.filter_congr fun other hother => ?_
        have hne : other ≠ name := fun heq => hnew (heq ▸ hother)
        simp [hne]
      rw [if_neg hname, hfilter]
      simp [hname]

/-- After a merge a name has its old value if nothing new is given, and else the old value
overridden by the new one. -/
theorem lookup_mergeEntries (hnodup : (Entries.keys given).Nodup) (name : String) :
    (mergeEntries held given).lookup name =
      match given.lookup name with
      | none => held.lookup name
      | some v => some (merge (held.lookup name) v) := by
  induction given generalizing held with
  | nil => rfl
  | cons entry rest ih =>
    obtain ⟨other, v⟩ := entry
    obtain ⟨hnew, hrest⟩ := List.nodup_cons.mp hnodup
    rw [mergeEntries, ih hrest, Entries.lookup_insert, Entries.lookup_cons]
    by_cases hname : name = other
    · subst hname
      rw [Entries.lookup_eq_none_iff.mpr hnew]
      simp
    · rw [if_neg hname, if_neg hname]

/-- A merge binds each name once, on every level. -/
theorem isKeyed_merge (v : Value) (hv : v.isKeyed = true) (old : Option Value)
    (hold : ∀ w, old = some w → w.isKeyed = true) : (merge old v).isKeyed = true := by
  induction v using map_induction generalizing old with
  | whole v hwhole =>
    rw [merge_whole hwhole]
    exact hv
  | map given ih =>
    by_cases hmap : ∃ held, old = some (.map held)
    · obtain ⟨held, rfl⟩ := hmap
      obtain ⟨hnodup, hgiven⟩ := isKeyedAll_iff.mp hv
      obtain ⟨hnodup', hheld⟩ := isKeyedAll_iff.mp (hold _ rfl)
      rw [merge_map]
      have hkeys : (Entries.keys (mergeEntries held given)).Nodup := by
        rw [keys_mergeEntries hnodup]
        refine hnodup'.append (hnodup.filter _) ?_
        intro name hname hnew
        simpa [hname] using (List.mem_filter.mp hnew).2
      have hheldAt : ∀ name w, held.lookup name = some w → w.isKeyed = true := by
        intro name w hw
        exact hheld _ (Entries.mem_of_lookup hw)
      refine isKeyedAll_iff.mpr ⟨hkeys, ?_⟩
      rintro ⟨name, w⟩ hmem
      have hw := Entries.lookup_of_mem hkeys hmem
      rw [lookup_mergeEntries hnodup] at hw
      cases hv : given.lookup name with
      | none =>
        rw [hv] at hw
        exact hheldAt name w hw
      | some u =>
        rw [hv] at hw
        cases hw
        have hmem := Entries.mem_of_lookup hv
        exact ih _ hmem (hgiven _ hmem) _ (hheldAt name)
    · rw [merge_of_not_map fun held h => hmap ⟨held, h⟩]
      exact hv

/-! ## A second merge -/

/-- Entries that are there already change nothing. -/
theorem mergeEntries_eq_self
    (h : ∀ entry ∈ given, ∃ w, held.lookup entry.1 = some w ∧ merge (some w) entry.2 = w) :
    mergeEntries held given = held := by
  induction given with
  | nil => rfl
  | cons entry rest ih =>
    obtain ⟨name, v⟩ := entry
    obtain ⟨w, hw, hmerge⟩ := h (name, v) (List.mem_cons_self ..)
    rw [mergeEntries, hw, hmerge, Entries.insert_eq_self hw]
    exact ih fun entry hmem => h entry (List.mem_cons_of_mem _ hmem)

/-- A value that was merged once is there: to merge it again changes nothing. -/
theorem merge_merge_self (v : Value) (hv : v.isKeyed = true) (old : Option Value) :
    merge (some (merge old v)) v = merge old v := by
  induction v using map_induction generalizing old with
  | whole v hwhole => rw [merge_whole hwhole, merge_whole hwhole]
  | map given ih =>
    obtain ⟨hnodup, hgiven⟩ := isKeyedAll_iff.mp hv
    -- Either the entries were merged into a map, or they replaced what was not one.
    by_cases hmap : ∃ held, old = some (.map held)
    · obtain ⟨held, rfl⟩ := hmap
      rw [merge_map, merge_map, mergeEntries_eq_self]
      intro entry hmem
      refine ⟨merge (held.lookup entry.1) entry.2, ?_, ih entry hmem (hgiven entry hmem) _⟩
      rw [lookup_mergeEntries hnodup, Entries.lookup_of_mem hnodup hmem]
    · rw [merge_of_not_map fun held h => hmap ⟨held, h⟩, merge_map, mergeEntries_eq_self]
      intro entry hmem
      have hwhole := ih entry hmem (hgiven entry hmem) none
      have hnone : merge none entry.2 = entry.2 := merge_of_not_map fun _ h => nomatch h
      rw [hnone] at hwhole
      exact ⟨entry.2, Entries.lookup_of_mem hnodup hmem, hwhole⟩

end Value

/-! ## Scopes -/

namespace Scope

variable {model data held given : Scope}

/-- The map at the end of a path of names. -/
def inner? : List String → Scope → Option Scope
  | [], scope => some scope
  | name :: path, scope => ((scope.lookup name).bind Value.entries?).bind (inner? path)

/-- A merge of scopes that bind each name once does so as well. -/
theorem isKeyed_merge (hmodel : isKeyed model = true) (hdata : isKeyed data = true) :
    isKeyed (merge model data) = true := by
  have h := Value.isKeyed_merge (.map data) hdata (some (.map model))
  rw [Value.merge_map] at h
  refine h fun w hw => ?_
  cases hw
  exact hmodel

/-- To merge the same data again changes nothing, the order of the names included. -/
theorem merge_merge_self (model : Scope) (hdata : isKeyed data = true) :
    merge (merge model data) data = merge model data := by
  have h := Value.merge_merge_self (.map data) hdata (some (.map model))
  simp only [Value.merge_map, Value.map.injEq] at h
  exact h

/-- A name of a merge is an old name or a new one. -/
theorem mem_keys_merge (hdata : isKeyed data = true) {name : String} :
    name ∈ Entries.keys (merge model data) ↔
      name ∈ Entries.keys model ∨ name ∈ Entries.keys data := by
  rw [merge, Value.keys_mergeEntries (Value.isKeyedAll_iff.mp hdata).1, List.mem_append,
    List.mem_filter]
  by_cases h : name ∈ Entries.keys model <;> simp [h]

/-- The value of a name after a merge: the old value if nothing new is given, the merge of the two
if both are maps, and else the new value whole. -/
theorem lookup_merge (hdata : isKeyed data = true) (name : String) :
    (merge model data).lookup name =
      match model.lookup name, data.lookup name with
      | old, none => old
      | some (.map held), some (.map given) => some (.map (merge held given))
      | _, some v => some v := by
  rw [merge, Value.lookup_mergeEntries (Value.isKeyedAll_iff.mp hdata).1]
  cases data.lookup name with
  | none => rfl
  | some v =>
    cases model.lookup name with
    | none => cases v <;> rfl
    | some old => cases old <;> cases v <;> rfl

/-- Where both scopes hold maps, the merge holds the merge of these maps. -/
theorem inner?_merge {path : List String} (hdata : isKeyed data = true)
    (hheld : inner? path model = some held) (hgiven : inner? path data = some given) :
    isKeyed given = true ∧ inner? path (merge model data) = some (merge held given) := by
  induction path generalizing model data with
  | nil =>
    cases hheld
    cases hgiven
    exact ⟨hdata, rfl⟩
  | cons name path ih =>
    simp only [inner?, Option.bind_eq_some_iff, Value.entries?_eq_some_iff] at hheld hgiven
    obtain ⟨old, ⟨_, hold, rfl⟩, hheld⟩ := hheld
    obtain ⟨new, ⟨_, hnew, rfl⟩, hgiven⟩ := hgiven
    have hlookup : (merge model data).lookup name = some (.map (merge old new)) := by
      rw [lookup_merge hdata, hold, hnew]
    have hkeyed := (Value.isKeyedAll_iff.mp hdata).2 _ (Entries.mem_of_lookup hnew)
    obtain ⟨hgivenKeyed, hinner⟩ := ih hkeyed hheld hgiven
    refine ⟨hgivenKeyed, ?_⟩
    rw [inner?, hlookup]
    exact hinner

end Scope

/-! ## Updates of a view -/

/-- To show the same source again changes nothing. -/
theorem Display.put_put (config : PatchConfig) (parser : MarkupParser) (d : Display)
    (source : String) :
    (d.put config parser source).display.put config parser source = d.put config parser source := by
  unfold put
  cases config.read parser source <;> rfl

/-- Only below a live element a source can be shown. -/
theorem Document.isElement_of_converge_eq_ok {doc : Document} {target : NodeId} {source : String}
    (hok : (doc.converge target source).1 = .ok ()) : doc.dom.isElement target = true := by
  cases hmade : (doc.compiler.createPatch source).1 with
  | error e =>
    rw [converge_of_error target hmade] at hok
    cases hok
  | ok patch => exact Dom.isElement_of_patch_eq_ok ((converge_of_ok target hmade).2.mp hok)

namespace View

variable {doc : Document} {behaviour : Behaviour} {helpers : Registry}

theorem isElement_of_patch_eq_ok {v : View} {source : String}
    (hok : (v.patch doc source).1 = .ok ()) : doc.dom.isElement v.host = true := by
  rw [patch_eq] at hok
  apply Document.isElement_of_converge_eq_ok
  cases hresult : (doc.converge v.host source).1 with
  | ok _ => rfl
  | error e =>
    rw [hresult] at hok
    cases hok

/-- A patch of a view with the source that it was just patched with has the same result and leaves
the same markup. -/
theorem patch_patch (h : doc.Reachable) (v : View) (hhost : doc.dom.isElement v.host = true)
    {source : String} {first second : Except ViewError Unit × Document}
    (hfirst : v.patch doc source = first) (hsecond : v.patch first.2 source = second)
    (hsize : second.2.dom.slots.size ≤ Dom.maxSlots) :
    second.1 = first.1 ∧ v.markup second.2 = v.markup first.2 := by
  have hgrow : first.2.dom.slots.size ≤ second.2.dom.slots.size := by
    rw [← hsecond, patch_eq]
    exact Document.slots_size_le_converge first.2 v.host source
  have hserved := served_patch h v hhost source
  rw [hfirst] at hserved
  have hserved := hserved (hgrow.trans hsize)
  have hserved' := served_patch hserved.reachable v (hserved.isElement hhost) source
  rw [hsecond] at hserved'
  have hreport : (⟨second.1, v.display second.2⟩ : Report) = ⟨first.1, v.display first.2⟩ := by
    calc (⟨second.1, v.display second.2⟩ : Report)
        = (v.display first.2).put first.2.compiler.config first.2.parser source :=
          (hserved' hsize).report_eq
      _ = ((v.display doc).put doc.compiler.config doc.parser source).display.put
            doc.compiler.config doc.parser source := by
          rw [← hserved.report_eq, ← hserved.making.config, ← hserved.parser_eq]
      _ = (v.display doc).put doc.compiler.config doc.parser source := Display.put_put ..
      _ = ⟨first.1, v.display first.2⟩ := hserved.report_eq.symm
  exact ⟨congrArg Report.result hreport, congrArg (·.display.markup) hreport⟩

/-- To update a view again with the same data changes neither the view nor what it shows. -/
theorem update_update (behaviour : Behaviour) (helpers : Registry) (h : doc.Reachable) (v : View)
    {data : Scope} (hdata : Scope.isKeyed data = true)
    {first second : Except ViewError Unit × View × Document}
    (hfirst : v.update behaviour helpers doc data = first)
    (hsecond : first.2.1.update behaviour helpers first.2.2 data = second)
    (hok : first.1 = .ok ()) (hsize : second.2.2.dom.slots.size ≤ Dom.maxSlots) :
    second.1 = .ok () ∧ second.2.1 = first.2.1 ∧
      second.2.1.markup second.2.2 = first.2.1.markup first.2.2 := by
  subst hfirst
  have hmodel := Scope.merge_merge_self v.model hdata
  simp only [update, refresh, hmodel] at hsecond hok ⊢
  subst hsecond
  obtain ⟨hresult, hmarkup⟩ := patch_patch h { v with model := Scope.merge v.model data }
    (isElement_of_patch_eq_ok hok) rfl rfl hsize
  exact ⟨hresult.trans hok, rfl, hmarkup⟩

/-- New data overrides a model.  On every level on which both hold maps, the names of the merge are
the names of the two, the old ones in their order and then the new ones in theirs; a name has its
old value if no new one is given, the merge of the two values if both are maps, and else the new
value whole.  To merge the data again changes nothing, and so a successful update that is repeated
succeeds again and leaves the view, its model and the markup below its host as they are. -/
theorem merge_overrides_and_repeats (behaviour : Behaviour) (helpers : Registry) {data : Scope}
    (hdata : Scope.isKeyed data = true) :
    (∀ model : Scope,
      (∀ path held given, Scope.inner? path model = some held →
        Scope.inner? path data = some given →
          let merged := Scope.merge held given
          Scope.inner? path (Scope.merge model data) = some merged ∧
            (∀ name, name ∈ Entries.keys merged ↔
              name ∈ Entries.keys held ∨ name ∈ Entries.keys given) ∧
            (∀ name, merged.lookup name =
              match held.lookup name, given.lookup name with
              | old, none => old
              | some (.map inner), some (.map others) => some (.map (Scope.merge inner others))
              | _, some v => some v) ∧
            Entries.keys merged = Entries.keys held ++
              (Entries.keys given).filter (· ∉ Entries.keys held)) ∧
      Scope.merge (Scope.merge model data) data = Scope.merge model data) ∧
    ∀ doc : Document, doc.Reachable → ∀ v : View,
      let first := v.update behaviour helpers doc data
      let second := first.2.1.update behaviour helpers first.2.2 data
      first.1 = .ok () → second.2.2.dom.slots.size ≤ Dom.maxSlots →
        second.1 = .ok () ∧ second.2.1 = first.2.1 ∧
          second.2.1.markup second.2.2 = first.2.1.markup first.2.2 := by
  refine ⟨fun model => ⟨?_, Scope.merge_merge_self model hdata⟩, ?_⟩
  · intro path held given hheld hgiven merged
    obtain ⟨hkeyed, hinner⟩ := Scope.inner?_merge hdata hheld hgiven
    exact ⟨hinner, fun name => Scope.mem_keys_merge hkeyed, Scope.lookup_merge hkeyed,
      Value.keys_mergeEntries (Value.isKeyedAll_iff.mp hkeyed).1⟩
  · intro doc h v first second hok hsize
    exact update_update behaviour helpers h v hdata rfl rfl hok hsize

/-- A map is overridden within, a map and a string replace each other, and new names follow. -/
theorem merge_overrides_and_repeats_of_nested_maps :
    let model : Scope := [("user", .map [("name", .str "Ada"), ("role", .str "admin")]),
      ("tags", .map [("a", .int 1)]), ("x", .str "1")]
    let data : Scope := [("more", .map []), ("x", .map [("y", .int 2)]),
      ("user", .map [("age", .int 36), ("name", .str "Grace")]), ("tags", .str "none")]
    let shown : Scope → Registry → String := fun scope _ => " ".intercalate <|
      ((Scope.inner? ["user"] scope).getD []).map (·.2.text) ++ Entries.keys scope
    let parser : MarkupParser := fun source => .ok (.ofNodes [.element "p" [] [.text source]])
    let v : View := ⟨⟨.function shown, .function shown, {}⟩, model, ⟨0, 0⟩⟩
    let doc := (create Sample.run Sample.helpers (.new parser .structural) v.template model).2
    let first := v.update Sample.run Sample.helpers doc data
    let second := first.2.1.update Sample.run Sample.helpers first.2.2 data
    (Scope.inner? ["user"] (Scope.merge model data)).map Entries.keys =
        some ["name", "role", "age"] ∧
      Entries.keys (Scope.merge model data) = ["user", "tags", "x", "more"] ∧
      ((Scope.merge model data).lookup "tags").map Value.text = some "none" ∧
      Scope.merge (Scope.merge model data) data = Scope.merge model data ∧
      first.1 = .ok () ∧ second.1 = .ok () ∧
      second.2.1.markup second.2.2 = "<p>Grace admin 36 user tags x more</p>" := by
  intro model data shown parser v doc first second
  have hdoc : doc.Reachable := reachable_create (.new rfl) v.template v.model {}
  have hfirst : first.1 = .ok () := by decide +kernel
  have hdata : Scope.isKeyed data = true := by decide
  obtain ⟨hmerge, hupdate⟩ := merge_overrides_and_repeats Sample.run Sample.helpers hdata
  obtain ⟨hlevels, hagain⟩ := hmerge model
  obtain ⟨-, -, hlookup, hkeys⟩ := hlevels [] model data rfl rfl
  obtain ⟨hinner, -, -, hinnerKeys⟩ := hlevels ["user"] _ _ rfl rfl
  obtain ⟨hsecond, -, hmarkup⟩ := hupdate doc hdoc v hfirst (by decide +kernel)
  refine ⟨?_, ?_, ?_, hagain, hfirst, hsecond, ?_⟩
  · rw [hinner, Option.map_some, hinnerKeys]
    decide
  · rw [hkeys]
    decide
  · rw [hlookup]
    rfl
  · rw [hmarkup]
    decide +kernel

end View
end LiveMarkup
