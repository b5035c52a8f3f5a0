import ProseLint.Proofs.Toml.Reader

/-!
# Entries and tables under one key

A text that has entries first, and after them tables with headers `[key.name]`, is read as these
entries and, if there are tables, one more entry under `key` that holds them. While it is read, only
the last table grows, and it is the last entry of the last entry (`foldlM_entries`).
-/

namespace ProseLint.Toml

namespace Entries
variable {es : Entries} {key : String} {n : Node}

theorem any_eq_false (h : key ∉ es.map Prod.fst) : es.any (·.1 == key) = false := by
  rw [List.any_eq_false]
  intro e he heq
  exact h (beq_iff_eq.1 heq ▸ List.mem_map_of_mem he)

theorem find?_eq_none (h : key ∉ es.map Prod.fst) : es.find? key = none := by
  rw [find?, List.lookup_eq_none_iff]
  intro e he
  exact bne_iff_ne.2 fun heq => h (heq ▸ List.mem_map_of_mem he)

theorem find?_append_singleton (h : key ∉ es.map Prod.fst) :
    Entries.find? (es ++ [(key, n)]) key = some n := by
  have hnone : List.lookup key es = none := find?_eq_none h
  rw [find?, List.lookup_append, hnone, Option.none_or, List.lookup_cons_self]

theorem add?_eq_some (h : key ∉ es.map Prod.fst) : es.add? key n = some (es ++ [(key, n)]) := by
  rw [add?, any_eq_false h]
  rfl

theorem set_eq_append (h : key ∉ es.map Prod.fst) : es.set key n = es ++ [(key, n)] := by
  rw [set, any_eq_false h]
  rfl

theorem set_append_singleton (h : key ∉ es.map Prod.fst) (m : Node) :
    Entries.set (es ++ [(key, n)]) key m = es ++ [(key, m)] := by
  have hany : (es ++ [(key, n)]).any (·.1 == key) = true := by simp
  have hes : es.map (fun e => if e.1 == key then (key, m) else e) = es := by
    refine (List.map_congr_left fun e he => if_neg ?_).trans (List.map_id es)
    exact fun heq => h (beq_iff_eq.1 heq ▸ List.mem_map_of_mem he)
  rw [set, hany, if_pos rfl, List.map_append, hes]
  simp

variable {f : Entries → Option Entries} {ks : List String}

theorem alter?_new (h : key ∉ es.map Prod.fst) :
    alter? f (key :: ks) es = (alter? f ks []).map fun t => es ++ [(key, .table .path t)] := by
  rw [alter?, find?_eq_none h]
  simp only [set_eq_append h]

theorem alter?_last (h : key ∉ es.map Prod.fst) (o : Origin) (t : Entries) :
    alter? f (key :: ks) (es ++ [(key, .table o t)]) =
      (alter? f ks t).map fun t => es ++ [(key, .table o t)] := by
  rw [alter?, find?_append_singleton h]
  simp only [set_append_singleton h]

end Entries

/-! ### Reading entries -/

theorem not_mem_of_nodup {key : String} {ks ls : List String} (h : (ks ++ key :: ls).Nodup) :
    key ∉ ks :=
  fun hm => (List.nodup_append.1 h).2.2 _ hm _ List.mem_cons_self rfl

/-- The statements of entries in a row. -/
def entryStatements (vs : List (String × Toml)) : List Statement :=
  vs.map fun v => .entry [v.1] v.2

def valueEntries (vs : List (String × Toml)) : Entries :=
  vs.map fun v => (v.1, .value v.2)

/-- The entries of a table are read into it, wherever it is. -/
theorem foldlM_entries {path : List String} {place : Entries → Entries}
    (hplace : ∀ f t, Entries.alter? f path (place t) = (f t).map place) (es : Entries)
    (vs : List (String × Toml)) (h : (es.map Prod.fst ++ vs.map Prod.fst).Nodup) :
    (entryStatements vs).foldlM Reading.add? ⟨place es, path⟩ =
      some ⟨place (es ++ valueEntries vs), path⟩ := by
  induction vs generalizing es with
  | nil => simp [entryStatements, valueEntries]
  | cons v vs ih =>
    have hkey : v.1 ∉ es.map Prod.fst := not_mem_of_nodup h
    have hadd : Reading.add? ⟨place es, path⟩ (.entry [v.1] v.2) =
        some ⟨place (es ++ [(v.1, .value v.2)]), path⟩ := by
      rw [Reading.add?, hplace, Entries.insert?, Entries.add?_eq_some hkey]
      rfl
    have hrest := ih (es ++ [(v.1, .value v.2)]) (by simpa using h)
    rw [entryStatements, List.map_cons, List.foldlM_cons, hadd]
    simpa [entryStatements, valueEntries] using hrest

/-! ### Reading tables -/

/-- The statements of tables with headers `[key.name]`. -/
def tableStatements (key : String) (ts : List (String × List (String × Toml))) : List Statement :=
  ts.flatMap fun t => .header [key, t.1] :: entryStatements t.2

def headedEntries (ts : List (String × List (String × Toml))) : Entries :=
  ts.map fun t => (t.1, .table .header (valueEntries t.2))

/-- The entry for tables under one key, if there are any. -/
def under (key : String) : Entries → Entries
  | [] => []
  | e :: es => [(key, .table .path (e :: es))]

theorem under_append_singleton (key : String) (es : Entries) (e : String × Node) :
    under key (es ++ [e]) = [(key, .table .path (es ++ [e]))] := by
  cases es <;> rfl

theorem add?_header {key name : String} {base es : Entries} (hkey : key ∉ base.map Prod.fst)
    (hname : name ∉ es.map Prod.fst) (current : List String) :
    Reading.add? ⟨base ++ under key es, current⟩ (.header [key, name]) =
      some ⟨base ++ [(key, .table .path (es ++ [(name, .table .header [])]))], [key, name]⟩ := by
  have hopen : Entries.open? name es = some (es ++ [(name, .table .header [])]) := by
    rw [Entries.open?, Entries.find?_eq_none hname, Entries.set_eq_append hname]
  have halter : Entries.alter? (Entries.open? name) [key] (base ++ under key es) =
      some (base ++ [(key, .table .path (es ++ [(name, .table .header [])]))]) := by
    cases es with
    | nil => rw [under, List.append_nil, Entries.alter?_new hkey, Entries.alter?, hopen]; rfl
    | cons e es => rw [under, Entries.alter?_last hkey, Entries.alter?, hopen]; rfl
  show (Entries.alter? (Entries.open? name) [key] (base ++ under key es)).bind _ = _
  rw [halter]
  rfl

theorem foldlM_tables {key : String} {base : Entries} (hkey : key ∉ base.map Prod.fst)
    (es : Entries) {ts : List (String × List (String × Toml))}
    (hnames : (es.map Prod.fst ++ ts.map Prod.fst).Nodup)
    (hkeys : ∀ t ∈ ts, (t.2.map Prod.fst).Nodup) (current : List String) :
    ∃ current', (tableStatements key ts).foldlM Reading.add? ⟨base ++ under key es, current⟩ =
      some ⟨base ++ under key (es ++ headedEntries ts), current'⟩ := by
  induction ts generalizing es current with
  | nil => exact ⟨current, by simp [tableStatements, headedEntries]⟩
  | cons t ts ih =>
    obtain ⟨ht, hts⟩ := List.forall_mem_cons.1 hkeys
    have hname : t.1 ∉ es.map Prod.fst := not_mem_of_nodup hnames
    -- The entries after the header go into the last table under `key`.
    let place (vs : Entries) : Entries :=
      base ++ [(key, .table .path (es ++ [(t.1, .table .header vs)]))]
    have hplace : ∀ f vs, Entries.alter? f [key, t.1] (place vs) = (f vs).map place := by
      intro f vs
      rw [Entries.alter?_last hkey, Entries.alter?_last hname, Entries.alter?, Option.map_map]
      rfl
    have hentries := foldlM_entries hplace [] t.2 ht
    obtain ⟨current', hrest⟩ := ih (es ++ [(t.1, .table .header (valueEntries t.2))])
      (by simpa using hnames) hts [key, t.1]
    rw [under_append_singleton] at hrest
    refine ⟨current', ?_⟩
    rw [tableStatements, List.flatMap_cons, List.cons_append, List.foldlM_cons,
      add?_header hkey hname]
    simp only [Option.bind_eq_bind, Option.bind_some, List.foldlM_append]
    rw [hentries]
    simpa [tableStatements, headedEntries] using hrest

/-! ### The whole text -/

theorem toEntries_valueEntries (vs : List (String × Toml)) :
    Node.toEntries (valueEntries vs) = vs := by
  induction vs with
  | nil => rfl
  | cons v vs ih =>
    rw [valueEntries, List.map_cons, Node.toEntries, Node.toValue]
    exact congrArg (v :: ·) ih

theorem toEntries_headedEntries (ts : List (String × List (String × Toml))) :
    Node.toEntries (headedEntries ts) = ts.map fun t => (t.1, .table t.2) := by
  induction ts with
  | nil => rfl
  | cons t ts ih =>
    rw [headedEntries, List.map_cons, Node.toEntries, Node.toValue, toEntries_valueEntries]
    exact congrArg (_ :: ·) ih

theorem toEntries_append (es fs : Entries) :
    Node.toEntries (es ++ fs) = Node.toEntries es ++ Node.toEntries fs := by
  induction es with
  | nil => rfl
  | cons e es ih =>
    rw [List.cons_append, Node.toEntries, Node.toEntries, ih]
    rfl

/-- The entry under which the tables are found, if there are any. -/
def tableEntry (key : String) (ts : List (String × List (String × Toml))) : List (String × Toml) :=
  if ts = [] then [] else [(key, .table (ts.map fun t => (t.1, .table t.2)))]

theorem toEntries_under (key : String) (ts : List (String × List (String × Toml))) :
    Node.toEntries (under key (headedEntries ts)) = tableEntry key ts := by
  cases ts with
  | nil => rfl
  | cons t ts =>
    show [(key, Toml.table (Node.toEntries (headedEntries (t :: ts))))] = _
    rw [toEntries_headedEntries]
    rfl

theorem read?_eq_some {text key : String} {vs : List (String × Toml)}
    {ts : List (String × List (String × Toml))}
    (htext : Says text.toList (entryStatements vs ++ tableStatements key ts))
    (hmark : dropByteOrderMark text.toList = text.toList)
    (hvs : (vs.map Prod.fst ++ [key]).Nodup) (hnames : (ts.map Prod.fst).Nodup)
    (hkeys : ∀ t ∈ ts, (t.2.map Prod.fst).Nodup) :
    read? text = some (vs ++ tableEntry key ts) := by
  have hvalues : (vs.map Prod.fst).Nodup := (List.nodup_append.1 hvs).1
  have hkey : key ∉ (valueEntries vs).map Prod.fst := by
    rw [valueEntries, List.map_map]
    exact not_mem_of_nodup hvs
  have hroot : ∀ f t, Entries.alter? f [] (id t) = (f t).map id := by
    intro f t
    rw [Option.map_id]
    rfl
  have hentries : (entryStatements vs).foldlM Reading.add? {} = some ⟨valueEntries vs, []⟩ :=
    foldlM_entries hroot [] vs hvalues
  obtain ⟨current, htables⟩ := foldlM_tables hkey [] hnames hkeys []
  rw [under.eq_1, List.append_nil, List.nil_append] at htables
  rw [read?, hmark, htext _ (Nat.lt_succ_self _)]
  simp only [Option.bind_eq_bind, Option.bind_some, List.foldlM_append, hentries, htables,
    toEntries_append, toEntries_valueEntries, toEntries_under]
  rfl

end ProseLint.Toml
