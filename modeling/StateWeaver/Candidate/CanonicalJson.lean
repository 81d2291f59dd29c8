import StateWeaver.Candidate.JsonPreflight

/-!
# Canonical JSON of a candidate

A value is written with sorted keys, without blanks, in UTF-8 and with a newline. The tools only read bytes that are
written so: they read them, write them again and compare.
-/

namespace StateWeaver.Candidate

open Py (charBytes Tree Text Literal)

/-- Whether an integer has more digits than Python writes. -/
def isTooLong : Literal → Bool
  | .int n => 4300 < (Nat.toDigits 10 n.natAbs).length
  | _ => false

/-- `canonical_json_bytes`. -/
def canonicalJsonBytes (value : Tree) : Except Failure (List UInt8) := do
  Imp.require (value.scalars.all fun s => !isTooLong s) .value
  Imp.require (Py.hasSurrogate value = false) .unicodeEncode
  return charBytes (Py.canonicalTextUtf8 value ++ ['\n'])

/-- `parse_canonical_json`. -/
def parseCanonicalJson (code : String) (maxBytes : ℕ) (content : List UInt8) : Except Failure Tree := do
  preflightJsonStructure code { maxBytes } content
  let text ← orRaise (Py.decodeUtf8 content) (.candidate code)
  let value ← (Py.loads text).mapError fun _ => .candidate code
  let canonical ← canonicalJsonBytes value
  Imp.require (canonical = content) (.candidate code)
  return value

/-- A value of JSON: the keys of an object are distinct, and numbers are finite. -/
structure IsJson (v : Tree) : Prop where
  distinct : v.Distinct
  finite : ∀ x, Literal.float x ∈ v.scalars → x.isFinite = true

theorem canonicalJsonBytes_eq_ok {v : Tree} {content : List UInt8} : canonicalJsonBytes v = .ok content ↔
    Py.AllValid Literal.IsPrinted v ∧ content = charBytes (Py.canonicalTextUtf8 v ++ ['\n']) := by
  rw [canonicalJsonBytes, Imp.check_bind_eq_ok, Imp.require_eq_ok, Imp.check_bind_eq_ok, Imp.require_eq_ok,
    Py.hasSurrogate_eq_false, List.all_eq_true, ← and_assoc]
  refine and_congr ⟨fun ⟨hlong, htexts, hkeys⟩ => ⟨fun s hs => ?_, hkeys⟩, fun h => ⟨fun s hs => ?_, fun t ht => ?_, ?_⟩⟩
    ⟨fun h => (Except.ok.inj h).symm, fun h => congrArg Except.ok h.symm⟩
  · cases s with
    | int n =>
        have hn := hlong _ hs
        rw [isTooLong, Bool.not_eq_true', decide_eq_false_iff_not] at hn
        exact Nat.le_of_not_lt hn
    | str t => exact htexts t hs
    | _ => trivial
  · cases s with
    | int n =>
        rw [isTooLong, Bool.not_eq_true', decide_eq_false_iff_not]
        exact Nat.not_lt.mpr (h.scalars _ hs)
    | _ => rfl
  · exact h.scalars _ ht
  · exact h.keys

/-- A value of JSON with canonical bytes can be written. -/
theorem isWritten_of_canonicalJsonBytes {v : Tree} {content : List UInt8} (hv : IsJson v)
    (h : canonicalJsonBytes v = .ok content) : Py.AllValid Literal.IsWritten v :=
  Py.isWritten_of_isFinite (canonicalJsonBytes_eq_ok.mp h).1 hv.finite

theorem withinLimits_sort {limits : JsonLimits} {v : Tree} : WithinLimits limits v.sort ↔ WithinLimits limits v := by
  have hsizes : SizesFit limits v.sort ↔ SizesFit limits v :=
    ⟨fun h => ⟨fun s hs => h.scalars s ((Json.mem_scalars_sort v s).mpr hs),
      fun key hkey => h.keys key ((Json.mem_keys_sort v key).mpr hkey)⟩,
    fun h => ⟨fun s hs => h.scalars s ((Json.mem_scalars_sort v s).mp hs),
      fun key hkey => h.keys key ((Json.mem_keys_sort v key).mp hkey)⟩⟩
  constructor
  · intro h
    exact ⟨(Json.nested_sort_iff v).mp h.nested, Json.nodes_sort v ▸ h.nodes_le, hsizes.mp h.sizes⟩
  · intro h
    exact ⟨(Json.nested_sort_iff v).mpr h.nested, (Json.nodes_sort v).symm ▸ h.nodes_le, hsizes.mpr h.sizes⟩

theorem preflightJsonStructure_eq_ok {code : String} {limits : JsonLimits} {text : List Char} {u : Unit} :
    preflightJsonStructure code limits (charBytes text) = .ok u ↔
      (charBytes text).length ≤ limits.maxBytes ∧ Scans limits 0 0 text := by
  rw [preflightJsonStructure, Imp.require_eq_ok]
  rfl

theorem mapError_eq_ok {α ε ε' : Type} {x : Except ε α} {f : ε → ε'} {a : α} : x.mapError f = .ok a ↔ x = .ok a := by
  cases x with
  | ok b => exact ⟨fun h => congrArg _ (Except.ok.inj h), fun h => congrArg _ (Except.ok.inj h)⟩
  | error e => exact iff_of_false nofun nofun

/-- What is parsed is a value of JSON whose canonical bytes are those that were parsed. -/
theorem of_parseCanonicalJson {code : String} {maxBytes : ℕ} {content : List UInt8} {v : Tree}
    (h : parseCanonicalJson code maxBytes content = .ok v) : IsJson v ∧ canonicalJsonBytes v = .ok content ∧
      content.length ≤ maxBytes ∧ WithinLimits { maxBytes } v ∧ v = v.sort := by
  rw [parseCanonicalJson, Imp.check_bind_eq_ok] at h
  obtain ⟨hpreflight, h⟩ := h
  obtain ⟨text, htext, h⟩ := Imp.except_bind_eq_ok.mp h
  obtain ⟨value, hvalue, h⟩ := Imp.except_bind_eq_ok.mp h
  obtain ⟨canonical, hcanonical, h⟩ := Imp.except_bind_eq_ok.mp h
  rw [Imp.check_bind_eq_ok, Imp.require_eq_ok] at h
  obtain ⟨hsame, hret⟩ := h
  subst hsame
  obtain rfl : v = value := (Except.ok.inj hret).symm
  obtain rfl := Py.decodeUtf8_eq_some.mp (orRaise_eq_ok.mp htext)
  have hloads : Py.loads text = .ok v := mapError_eq_ok.mp hvalue
  obtain ⟨hprinted, hbytes⟩ := canonicalJsonBytes_eq_ok.mp hcanonical
  have heq : text = Py.canonicalTextUtf8 v ++ ['\n'] := Py.charBytes_injective hbytes
  -- an infinity would have been written as a word that is not read
  have hwritten : Py.AllValid Literal.IsWritten v.sort := by
    have hread := hloads
    rw [heq, Py.canonicalTextUtf8] at hread
    exact Py.isWritten_of_loads (Py.allValid_sort hprinted) hread
  have hv : Py.AllValid Literal.IsWritten v :=
    ⟨fun s hs => hwritten.scalars s ((Json.mem_scalars_sort v s).mpr hs),
      fun key hkey => hwritten.keys key ((Json.mem_keys_sort v key).mpr hkey)⟩
  have hdistinct : v.Distinct := Py.distinct_of_loads hloads
  have hsort : v = v.sort := by
    rw [heq, Py.loads_canonicalTextUtf8_newline hv hdistinct] at hloads
    exact (Except.ok.inj hloads).symm
  obtain ⟨hlength, hscans⟩ := preflightJsonStructure_eq_ok.mp hpreflight
  rw [heq, Py.canonicalTextUtf8, scans_canonicalText_iff hwritten, withinLimits_sort] at hscans
  exact ⟨⟨hdistinct, fun x hx => hv.scalars _ hx⟩, hcanonical, hlength, hscans, hsort⟩

/-- The canonical bytes of a value of JSON within the bounds are parsed, with the entries of objects in order. -/
theorem parseCanonicalJson_of_canonical (code : String) {maxBytes : ℕ} {content : List UInt8} {v : Tree} (hv : IsJson v)
    (hcanonical : canonicalJsonBytes v = .ok content) (hlength : content.length ≤ maxBytes)
    (hlimits : WithinLimits { maxBytes } v) : parseCanonicalJson code maxBytes content = .ok v.sort := by
  have hwritten := isWritten_of_canonicalJsonBytes hv hcanonical
  obtain ⟨hprinted, rfl⟩ := canonicalJsonBytes_eq_ok.mp hcanonical
  have hscans : Scans { maxBytes } 0 0 (Py.canonicalTextUtf8 v ++ ['\n']) :=
    (scans_canonicalText_iff (Py.allValid_sort hwritten)).mpr (withinLimits_sort.mpr hlimits)
  have hagain : canonicalJsonBytes v.sort = .ok (charBytes (Py.canonicalTextUtf8 v ++ ['\n'])) := by
    refine canonicalJsonBytes_eq_ok.mpr ⟨Py.allValid_sort hprinted, ?_⟩
    rw [Py.canonicalTextUtf8, Py.canonicalTextUtf8, ((Json.ascending_iff _).mp (Json.ascending_sort hv.distinct)).2]
  rw [parseCanonicalJson, Imp.check_bind_eq_ok]
  refine ⟨preflightJsonStructure_eq_ok.mpr ⟨hlength, hscans⟩, Imp.except_bind_eq_ok.mpr ⟨_,
    orRaise_eq_ok.mpr (Py.decodeUtf8_eq_some.mpr rfl), Imp.except_bind_eq_ok.mpr ⟨v.sort,
      mapError_eq_ok.mpr (Py.loads_canonicalTextUtf8_newline hwritten hv.distinct),
      Imp.except_bind_eq_ok.mpr ⟨_, hagain, ?_⟩⟩⟩⟩
  rw [Imp.check_bind_eq_ok, Imp.require_eq_ok]
  exact ⟨rfl, rfl⟩

/-- Exactly the canonical bytes of values of JSON within the bounds are parsed, for the values; and on what the
preflight accepts, the reader opens no container too deep and builds no value too many before it ends. -/
theorem parseCanonicalJson_exact (code : String) (maxBytes : ℕ) (content : List UInt8) :
    (∀ v, parseCanonicalJson code maxBytes content = .ok v ↔ ∃ w, IsJson w ∧ canonicalJsonBytes w = .ok content ∧
      content.length ≤ maxBytes ∧ WithinLimits { maxBytes } w ∧ v = w.sort) ∧
    ∀ limits text, preflightJsonStructure code limits content = .ok () → Py.decodeUtf8 content = some text →
      (∀ n, Py.loadsWithin limits.maxDepth limits.maxNodes n text ≠ .error .budget) ∧
        Py.loadsWithin limits.maxDepth limits.maxNodes (text.length + 1) text = (Py.loads text).mapError .failure := by
  refine ⟨fun v => ⟨fun h => ?_, ?_⟩, fun limits text hpreflight htext => ?_⟩
  · obtain ⟨hjson, hcanonical, hlength, hlimits, hsort⟩ := of_parseCanonicalJson h
    exact ⟨v, hjson, hcanonical, hlength, hlimits, hsort⟩
  · rintro ⟨w, hjson, hcanonical, hlength, hlimits, rfl⟩
    exact parseCanonicalJson_of_canonical code hjson hcanonical hlength hlimits
  · obtain rfl := Py.decodeUtf8_eq_some.mp htext
    have hscans := (preflightJsonStructure_eq_ok.mp hpreflight).2
    exact ⟨(scanner_scans limits).loadsWithin_ne_budget hscans, (scanner_scans limits).loadsWithin_eq hscans⟩

/-- A list of two lists is read within a budget of two containers inside each other and of three values. -/
theorem parseCanonicalJson_exact_lists :
    Py.loadsWithin 2 3 10 ['[', '[', ']', ',', '[', ']', ']', '\n'] ≠ .error .budget :=
  ((parseCanonicalJson_exact "json" 8 [91, 91, 93, 44, 91, 93, 93, 10]).2 { maxBytes := 8, maxDepth := 2, maxNodes := 3 }
    ['[', '[', ']', ',', '[', ']', ']', '\n'] (by decide +kernel) (by decide +kernel)).1 10

end StateWeaver.Candidate
