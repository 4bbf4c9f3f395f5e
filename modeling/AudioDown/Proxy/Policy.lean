/-
# AudioDown.Proxy.Policy — which hosts a plugin may reach

The network proxy reads the allowed hosts of a plugin's manifest a second time: Core's validator
(`Manager.allowedHostMatches`, `Manager.validAllowedHost`) decides whether the manifest is accepted, the
proxy's `HostPattern` decides at run time which requests leave.  A pattern the validator accepts is one the
proxy understands, and on exact patterns the two agree.  They differ on wildcards: for the validator `*.`
stands for any number of labels, for the proxy for exactly one.
-/
import AudioDown.Package.Repository
import Mathlib.Data.List.DropRight

namespace AudioDown.Proxy

open Package
open Package.Manager (stripPrefix allowedHostMatches validAllowedHost validateManifest isLower
  isLowerOrDigit)

/-! ## The proxy's patterns -/

variable (F : Formats)

def normalizeHost (host : String) : String :=
  toAsciiLowercase (String.ofList (host.toList.rdropWhile (· == '.')))

def validLabel (label : List Char) : Bool :=
  label ≠ [] && label.length ≤ 63 && label.head? ≠ some '-' && label.getLast? ≠ some '-' &&
    label.all fun c => isLowerOrDigit c || c = '-'

def validHostname (host : String) : Bool :=
  if host = "" || 253 < host.utf8ByteSize || F.ipAddr host then false
  else (host.toList.splitOn '.').all validLabel

/-- `host.split('.').count()` -/
def labelCount (host : String) : Nat := (host.toList.splitOn '.').length

inductive HostPattern where
  | exact (pattern : String)
  | wildcard (suffix : String) (suffixLabels : Nat)
  | invalid
deriving DecidableEq

def HostPattern.parse (pattern : String) : HostPattern :=
  let pattern := normalizeHost pattern
  if pattern = "" || pattern.toList.contains '/' || pattern.toList.contains ':' then .invalid
  else match stripPrefix "*." pattern with
    | some suffix =>
      if !validHostname F suffix then .invalid else .wildcard suffix (labelCount suffix)
    | none => if validHostname F pattern then .exact pattern else .invalid

def HostPattern.matches (pattern : HostPattern) (host : String) : Bool :=
  let host := normalizeHost host
  match pattern with
  | .exact pattern => host = pattern
  | .wildcard suffix suffixLabels =>
    ('.' :: suffix.toList).isSuffixOf host.toList && labelCount host = suffixLabels + 1
  | .invalid => false

structure AllowedHosts where
  patterns : List HostPattern

def AllowedHosts.fromManifest (manifest : PluginManifest) : AllowedHosts :=
  ⟨manifest.allowedHosts.map (HostPattern.parse F)⟩

def AllowedHosts.allows (hosts : AllowedHosts) (host : String) : Bool :=
  hosts.patterns.any (·.matches host)

/-! ## Names made of labels -/

/-- Labels as both sides want them, separated by dots. -/
def Labels (name : List Char) : Prop := (name.splitOn '.').all validLabel = true

theorem validLabel_eq (label : List Char) : validLabel label = Package.Manager.validLabel label := by
  unfold validLabel Package.Manager.validLabel
  cases label.all fun c => isLowerOrDigit c || c = '-' <;> simp

theorem labels_iff (name : List Char) :
    Labels name ↔ (name.splitOn '.').all Package.Manager.validLabel = true := by
  rw [Labels, show validLabel = Package.Manager.validLabel from funext validLabel_eq]

def isHostChar (c : Char) : Bool := c = '.' || c = '-' || isLowerOrDigit c

variable {c : Char} {host pattern suffix : String} {manifest : PluginManifest}

theorem toLower_of_isHostChar (h : isHostChar c = true) : c.toLower = c := by
  have notUpper : ¬ (c.val ≥ 'A'.val ∧ c.val ≤ 'Z'.val) := by
    rintro ⟨low, high⟩
    simp only [isHostChar, isLowerOrDigit, isLower, Bool.or_eq_true, Bool.and_eq_true,
      decide_eq_true_eq, Char.le_def, UInt32.le_iff_toNat_le] at h
    rw [ge_iff_le, UInt32.le_iff_toNat_le] at low
    rw [UInt32.le_iff_toNat_le] at high
    simp only [Char.reduceVal, UInt32.reduceToNat] at h low high
    obtain (rfl | rfl) | h := h
    · revert low; decide
    · revert low; decide
    · omega
  exact dif_neg notUpper

theorem mem_label {name : List Char} (hc : c ∈ name) (hdot : c ≠ '.') :
    ∃ label ∈ name.splitOn '.', c ∈ label := by
  induction name with
  | nil => cases hc
  | cons d name ih =>
    rw [List.splitOn_cons_eq_if_modifyHead]
    split
    · rename_i hd
      obtain rfl | hc := List.mem_cons.mp hc
      · exact absurd (beq_iff_eq.mp hd) hdot
      · obtain ⟨label, hl, hcl⟩ := ih hc
        exact ⟨label, List.mem_cons_of_mem _ hl, hcl⟩
    · cases hsplit : name.splitOn '.' with
      | nil => exact absurd hsplit (List.splitOn_ne_nil _ _)
      | cons first rest =>
        rw [List.modifyHead_cons]
        obtain rfl | hc := List.mem_cons.mp hc
        · exact ⟨_, List.mem_cons_self, List.mem_cons_self⟩
        · obtain ⟨label, hl, hcl⟩ := ih hc
          rw [hsplit] at hl
          obtain rfl | hl := List.mem_cons.mp hl
          · exact ⟨_, List.mem_cons_self, List.mem_cons_of_mem _ hcl⟩
          · exact ⟨label, List.mem_cons_of_mem _ hl, hcl⟩

variable {F} {name : List Char}

theorem Labels.isHostChar (h : Labels name) (hc : c ∈ name) : isHostChar c = true := by
  by_cases hdot : c = '.'
  · subst hdot; rfl
  · obtain ⟨label, hl, hcl⟩ := mem_label hc hdot
    have hlabel := List.all_eq_true.mp h label hl
    simp only [validLabel, Bool.and_eq_true] at hlabel
    have hchar := List.all_eq_true.mp hlabel.2 c hcl
    rw [Proxy.isHostChar, Bool.or_assoc, Bool.or_comm (decide (c = '-')), hchar, Bool.or_true]

theorem Labels.not_dot_last (h : Labels (name ++ ['.'])) : False := by
  rw [Labels, List.splitOn_append_cons_self, List.splitOn_nil, List.all_append] at h
  simp [validLabel] at h

theorem Labels.rdropWhile (h : Labels name) (pre : List Char) :
    (pre ++ name).rdropWhile (· == '.') = pre ++ name := by
  obtain rfl | ⟨init, last, rfl⟩ := List.eq_nil_or_concat name
  · simp [Labels, validLabel] at h
  · rw [List.concat_eq_append, ← List.append_assoc]
    apply List.rdropWhile_concat_neg
    intro hlast
    rw [List.concat_eq_append, beq_iff_eq.mp hlast] at h
    exact h.not_dot_last

theorem Labels.map_toLower (h : Labels name) : name.map Char.toLower = name := by
  rw [List.map_congr_left fun c hc => toLower_of_isHostChar (h.isHostChar hc), List.map_id']

theorem labelCount_append (pre suffix : List Char) : labelCount (String.ofList (pre ++ '.' :: suffix)) =
      labelCount (String.ofList pre) + labelCount (String.ofList suffix) := by
  simp only [labelCount, String.toList_ofList, List.splitOn_append_cons_self, List.length_append]

theorem normalizeHost_of_labels (h : Labels host.toList) : normalizeHost host = host := by
  have hdrop := h.rdropWhile []
  rw [List.nil_append] at hdrop
  rw [normalizeHost, hdrop, toAsciiLowercase, String.toList_ofList, h.map_toLower, String.ofList_toList]

theorem Labels.ne_nil (h : Labels name) : name ≠ [] := by
  rintro rfl
  simp [Labels, validLabel] at h

theorem validHostname_iff : validHostname F host = true ↔
      Labels host.toList ∧ host.utf8ByteSize ≤ 253 ∧ F.ipAddr host = false := by
  unfold validHostname
  constructor
  · intro h
    split at h
    · cases h
    · rename_i hnot
      simp only [Bool.or_eq_true, decide_eq_true_eq, not_or, Bool.not_eq_true] at hnot
      exact ⟨h, Nat.le_of_not_lt hnot.1.2, hnot.2⟩
  · rintro ⟨labels, size, ip⟩
    rw [if_neg]
    · exact labels
    · simp only [Bool.or_eq_true, decide_eq_true_eq, not_or, ip, Bool.false_eq_true, not_false_eq_true, and_true]
      refine ⟨?_, by omega⟩
      intro hempty
      exact labels.ne_nil (by rw [hempty]; rfl)

/-! ## Patterns the validator accepts -/

theorem stripPrefix_eq_some {pre s rest : String} :
    stripPrefix pre s = some rest ↔ s.toList = pre.toList ++ rest.toList := by
  unfold stripPrefix startsWith
  constructor
  · intro h
    split at h
    · rename_i hpre
      obtain ⟨tail, htail⟩ := List.isPrefixOf_iff_prefix.mp hpre
      rw [← Option.some.inj h, String.toList_ofList, ← htail, ← String.length_toList, List.drop_left]
    · cases h
  · intro h
    rw [if_pos (List.isPrefixOf_iff_prefix.mpr ⟨_, h.symm⟩), h, ← String.length_toList, List.drop_left,
      String.ofList_toList]

theorem stripPrefix_wildcard (h : stripPrefix "*." pattern = some suffix) :
    pattern.toList = '*' :: '.' :: suffix.toList :=
  stripPrefix_eq_some.mp h

/-- What the validator knows of a pattern: it, or what follows its wildcard, is a name of labels and no
address. -/
theorem validAllowedHost_spec (h : validAllowedHost F pattern = true) :
    let host := (stripPrefix "*." pattern).getD pattern
    Labels host.toList ∧ F.ipAddr host = false ∧ pattern.utf8ByteSize ≤ 253 := by
  unfold validAllowedHost at h
  split at h
  · cases h
  · rename_i hfirst
    simp only at h
    split at h
    · cases h
    · rename_i hsecond
      simp only [Bool.or_eq_true, decide_eq_true_eq, not_or, Bool.not_eq_true] at hfirst hsecond
      exact ⟨(labels_iff _).mpr h, hsecond.1.2, Nat.le_of_not_lt hfirst.2⟩

theorem not_mem_of_labels (h : Labels name) (hc : isHostChar c = false) : c ∉ name := by
  intro hmem
  rw [h.isHostChar hmem] at hc
  cases hc

theorem parse_wildcard (h : validAllowedHost F pattern = true)
    (hstrip : stripPrefix "*." pattern = some suffix) :
    HostPattern.parse F pattern = .wildcard suffix (labelCount suffix) ∧ Labels suffix.toList := by
  obtain ⟨labels, ip, size⟩ := validAllowedHost_spec h
  rw [hstrip, Option.getD_some] at labels ip
  have hlist := stripPrefix_wildcard hstrip
  have hnormal : normalizeHost pattern = pattern := by
    have hdrop := labels.rdropWhile ['*', '.']
    rw [normalizeHost, hlist, show '*' :: '.' :: suffix.toList = ['*', '.'] ++ suffix.toList from rfl, hdrop,
      toAsciiLowercase, String.toList_ofList, List.map_append, labels.map_toLower]
    apply String.toList_inj.mp
    rw [String.toList_ofList, hlist]
    rfl
  have hsize : suffix.utf8ByteSize ≤ 253 := by
    have heq : pattern = "*." ++ suffix := String.toList_inj.mp (by rw [hlist, String.toList_append]; rfl)
    rw [heq, String.utf8ByteSize_append] at size
    omega
  have hvalid : validHostname F suffix = true := validHostname_iff.mpr ⟨labels, hsize, ip⟩
  have hsyntax : (pattern = "" || pattern.toList.contains '/' || pattern.toList.contains ':') = false := by
    have hslash := not_mem_of_labels (c := '/') labels (by decide)
    have hcolon := not_mem_of_labels (c := ':') labels (by decide)
    have hne : pattern ≠ "" := by
      rintro rfl
      cases hlist
    simp [hlist, hslash, hcolon, hne]
  refine ⟨?_, labels⟩
  simp only [HostPattern.parse, hnormal, hsyntax, hstrip, hvalid, Bool.not_true, Bool.false_eq_true, if_false]

theorem parse_exact (h : validAllowedHost F pattern = true) (hstrip : stripPrefix "*." pattern = none) :
    HostPattern.parse F pattern = .exact pattern ∧ validHostname F pattern = true := by
  obtain ⟨labels, ip, size⟩ := validAllowedHost_spec h
  rw [hstrip, Option.getD_none] at labels ip
  have hnormal := normalizeHost_of_labels labels
  have hvalid : validHostname F pattern = true := validHostname_iff.mpr ⟨labels, size, ip⟩
  have hsyntax : (pattern = "" || pattern.toList.contains '/' || pattern.toList.contains ':') = false := by
    have hslash := not_mem_of_labels (c := '/') labels (by decide)
    have hcolon := not_mem_of_labels (c := ':') labels (by decide)
    have hne : pattern ≠ "" := by
      rintro rfl
      exact labels.ne_nil rfl
    simp [hslash, hcolon, hne]
  refine ⟨?_, hvalid⟩
  simp only [HostPattern.parse, hnormal, hsyntax, hstrip, hvalid, Bool.false_eq_true, if_true, if_false]

/-! ## The two matchers -/

theorem labelCount_eq_one {label : List Char} : labelCount (String.ofList label) = 1 ↔ '.' ∉ label := by
  rw [labelCount, String.toList_ofList]
  constructor
  · intro h hmem
    obtain ⟨before, after, rfl⟩ := List.append_of_mem hmem
    rw [List.splitOn_append_cons_self, List.length_append] at h
    have hb := List.length_pos_of_ne_nil (List.splitOn_ne_nil '.' before)
    have ha := List.length_pos_of_ne_nil (List.splitOn_ne_nil '.' after)
    omega
  · intro h
    rw [List.splitOn_eq_singleton h]
    rfl

theorem allowedHostMatches_wildcard (hstrip : stripPrefix "*." pattern = some suffix) :
    allowedHostMatches pattern host = true ↔ ∃ before, host.toList = before ++ '.' :: suffix.toList := by
  rw [allowedHostMatches, hstrip]
  rw [List.isSuffixOf_iff_suffix]
  exact ⟨fun ⟨before, h⟩ => ⟨before, h.symm⟩, fun ⟨before, h⟩ => ⟨before, h.symm⟩⟩

theorem allowedHostMatches_exact (hstrip : stripPrefix "*." pattern = none) :
    allowedHostMatches pattern host = true ↔ pattern = host := by
  rw [allowedHostMatches, hstrip]
  exact decide_eq_true_iff

theorem matches_wildcard : (HostPattern.wildcard suffix (labelCount suffix)).matches host = true ↔
      ∃ label, '.' ∉ label ∧ (normalizeHost host).toList = label ++ '.' :: suffix.toList := by
  simp only [HostPattern.matches, Bool.and_eq_true, decide_eq_true_eq, List.isSuffixOf_iff_suffix]
  have count : ∀ label, (normalizeHost host).toList = label ++ '.' :: suffix.toList →
      labelCount (normalizeHost host) = labelCount (String.ofList label) + labelCount suffix := by
    intro label h
    have happend := labelCount_append label suffix.toList
    rwa [← h, String.ofList_toList, String.ofList_toList] at happend
  constructor
  · rintro ⟨⟨label, hlabel⟩, hcount⟩
    refine ⟨label, labelCount_eq_one.mp ?_, hlabel.symm⟩
    have := count label hlabel.symm
    omega
  · rintro ⟨label, hdot, hlabel⟩
    refine ⟨⟨label, hlabel.symm⟩, ?_⟩
    rw [count label hlabel, labelCount_eq_one.mpr hdot, Nat.add_comm]

theorem matches_exact : (HostPattern.exact pattern).matches host = true ↔ normalizeHost host = pattern := by
  simp only [HostPattern.matches, decide_eq_true_eq]

/-- The name is listed, or its parent with a wildcard. -/
def Listed (manifest : PluginManifest) (host : String) : Prop :=
  host ∈ manifest.allowedHosts ∨ ∃ label parent : String, '.' ∉ label.toList ∧
    host = label ++ "." ++ parent ∧ "*." ++ parent ∈ manifest.allowedHosts

theorem toList_under {before after : String} :
    (before ++ "." ++ after).toList = before.toList ++ '.' :: after.toList := by
  rw [String.toList_append, String.toList_append, List.append_assoc]
  rfl

theorem stripPrefix_append (pre s : String) : stripPrefix pre (pre ++ s) = some s :=
  stripPrefix_eq_some.mpr String.toList_append

theorem allows_iff (hvalid : ∀ p ∈ manifest.allowedHosts, validAllowedHost F p = true) (host : String) :
    (AllowedHosts.fromManifest F manifest).allows host = true ↔ Listed manifest (normalizeHost host) := by
  rw [AllowedHosts.allows, List.any_eq_true]
  constructor
  · rintro ⟨_, hmem, hmatch⟩
    obtain ⟨pattern, hp, rfl⟩ := List.mem_map.mp hmem
    cases hstrip : stripPrefix "*." pattern with
    | none =>
      rw [(parse_exact (hvalid pattern hp) hstrip).1, matches_exact] at hmatch
      exact .inl (hmatch ▸ hp)
    | some suffix =>
      rw [(parse_wildcard (hvalid pattern hp) hstrip).1, matches_wildcard] at hmatch
      obtain ⟨label, hdot, hlabel⟩ := hmatch
      refine .inr ⟨String.ofList label, suffix, by rwa [String.toList_ofList], ?_, ?_⟩
      · apply String.toList_inj.mp
        rw [toList_under, String.toList_ofList, hlabel]
      · have hpattern : pattern = "*." ++ suffix :=
          String.toList_inj.mp (by rw [stripPrefix_eq_some.mp hstrip, String.toList_append])
        exact hpattern ▸ hp
  · rintro (hp | ⟨label, parent, hdot, hhost, hp⟩)
    · refine ⟨_, List.mem_map_of_mem hp, ?_⟩
      cases hstrip : stripPrefix "*." (normalizeHost host) with
      | none => rw [(parse_exact (hvalid _ hp) hstrip).1, matches_exact]
      | some suffix =>
        -- a host named `*.suffix` is one label below the suffix
        rw [(parse_wildcard (hvalid _ hp) hstrip).1, matches_wildcard]
        exact ⟨['*'], by decide, stripPrefix_wildcard hstrip⟩
    · refine ⟨_, List.mem_map_of_mem hp, ?_⟩
      rw [(parse_wildcard (hvalid _ hp) (stripPrefix_append _ _)).1, matches_wildcard]
      exact ⟨label.toList, hdot, by rw [hhost, toList_under]⟩

/-! ## Manifests -/

def declared (manifest : PluginManifest) : List ScopeDeclaration :=
  manifest.credentials.providedScopes ++ manifest.credentials.requiredScopes ++
    manifest.credentials.optionalScopes

theorem validateManifest_spec {root : Package.Tree} {coreVersion pluginApiVersion : Package.Version}
    (h : validateManifest F manifest root coreVersion pluginApiVersion = .ok ()) :
    (∀ p ∈ manifest.allowedHosts, validAllowedHost F p = true) ∧ ∀ declaration ∈ declared manifest,
    ∀ origin ∈ declaration.targetOrigins, ∃ url host, F.url origin = some url ∧ url.host = some host ∧
    ∃ p ∈ manifest.allowedHosts, allowedHostMatches p host = true := by
  simp only [validateManifest, Lib.require_bind_eq_ok] at h
  obtain ⟨-, -, h⟩ := h
  obtain ⟨_, -, h⟩ := Lib.bind_eq_ok h
  obtain ⟨_, -, h⟩ := Lib.bind_eq_ok h
  simp only [Lib.require_bind_eq_ok, Bool.and_eq_true] at h
  obtain ⟨-, -, -, ⟨-, hosts⟩, h⟩ := h
  obtain ⟨_, hcredentials, -⟩ := Lib.bind_eq_ok h
  refine ⟨List.all_eq_true.mp hosts, ?_⟩
  simp only [Package.Manager.validateCredentialDeclarations, Lib.require_bind_eq_ok] at hcredentials
  obtain ⟨-, -, -, hscopes⟩ := hcredentials
  intro declaration hdeclaration origin horigin
  have hscope := Lib.forAll_eq_ok.mp hscopes declaration hdeclaration
  simp only [Package.Manager.validateScopeDeclaration, Lib.require_bind_eq_ok] at hscope
  have hchecked := Lib.forAll_eq_ok.mp hscope.2.2 origin horigin
  obtain ⟨url, hurl, hchecked⟩ := Lib.bind_eq_ok hchecked
  obtain ⟨host, hhost, hchecked⟩ := Lib.bind_eq_ok hchecked
  obtain ⟨p, hp, hmatch⟩ := List.any_eq_true.mp (Lib.require_eq_ok.mp hchecked)
  exact ⟨url, host, Lib.okOr_eq_ok.mp hurl, Lib.okOr_eq_ok.mp hhost, p, hp, hmatch⟩

theorem normalizeHost_of_matches (hvalid : validAllowedHost F pattern = true)
    (h : allowedHostMatches pattern host = true) : normalizeHost host = toAsciiLowercase host := by
  have hdrop : host.toList.rdropWhile (· == '.') = host.toList := by
    cases hstrip : stripPrefix "*." pattern with
    | none =>
      obtain rfl := (allowedHostMatches_exact hstrip).mp h
      exact (validHostname_iff.mp (parse_exact hvalid hstrip).2).1.rdropWhile []
    | some suffix =>
      obtain ⟨before, hbefore⟩ := (allowedHostMatches_wildcard hstrip).mp h
      have := (parse_wildcard hvalid hstrip).2.rdropWhile (before ++ ['.'])
      rwa [List.append_assoc, List.singleton_append, ← hbefore] at this
  rw [normalizeHost, hdrop, String.ofList_toList]

/-- An address is written with colons, or with digits and dots only. -/
def AddressText (F : Formats) : Prop :=
  ∀ text, F.ipAddr text = true → ':' ∈ text.toList ∨ ∀ c ∈ text.toList, c.isDigit = true ∨ c = '.'

theorem exists_matches (address : AddressText F) (h : validAllowedHost F pattern = true) :
    ∃ host, validHostname F host = true ∧ (HostPattern.parse F pattern).matches host = true := by
  cases hstrip : stripPrefix "*." pattern with
  | none =>
    obtain ⟨hparse, hvalid⟩ := parse_exact h hstrip
    refine ⟨pattern, hvalid, ?_⟩
    rw [hparse, matches_exact]
    exact normalizeHost_of_labels (validHostname_iff.mp hvalid).1
  | some suffix =>
    obtain ⟨hparse, labels⟩ := parse_wildcard h hstrip
    -- the host `a.suffix`, which is as long as the pattern
    have hlist : ("a" ++ "." ++ suffix).toList = ['a'] ++ '.' :: suffix.toList := toList_under
    have hlabels : Labels ("a" ++ "." ++ suffix).toList := by
      rw [hlist, Labels, List.splitOn_append_cons_self, List.all_append]
      exact Bool.and_eq_true_iff.mpr ⟨by decide, labels⟩
    refine ⟨"a" ++ "." ++ suffix, validHostname_iff.mpr ⟨hlabels, ?_, ?_⟩, ?_⟩
    · have hpattern : pattern = "*." ++ suffix :=
        String.toList_inj.mp (by rw [stripPrefix_eq_some.mp hstrip, String.toList_append])
      have size := (validAllowedHost_spec h).2.2
      rw [hpattern, String.utf8ByteSize_append] at size
      rw [String.utf8ByteSize_append, String.utf8ByteSize_append]
      exact size
    · rw [Bool.eq_false_iff]
      intro hip
      obtain hcolon | hdigits := address _ hip
      · exact not_mem_of_labels hlabels (by decide) hcolon
      · have ha := hdigits 'a' (by rw [hlist]; exact List.mem_cons_self)
        revert ha
        decide
    · rw [hparse, matches_wildcard, normalizeHost_of_labels hlabels]
      exact ⟨['a'], by decide, hlist⟩

/-- The verdicts on an accepted pattern and a hostname differ where a wildcard would have to stand for several
labels. -/
theorem same_verdict_iff (hpattern : validAllowedHost F pattern = true)
    (hhost : validHostname F host = true) :
    (HostPattern.parse F pattern).matches host = allowedHostMatches pattern host ↔
      ∀ before suffix : String, pattern = "*." ++ suffix → host = before ++ "." ++ suffix →
        '.' ∉ before.toList := by
  have hnormal := normalizeHost_of_labels (validHostname_iff.mp hhost).1
  rw [Bool.eq_iff_iff]
  cases hstrip : stripPrefix "*." pattern with
  | none =>
    rw [(parse_exact hpattern hstrip).1, matches_exact, allowedHostMatches_exact hstrip, hnormal]
    refine ⟨?_, fun _ => eq_comm⟩
    rintro - before suffix rfl
    rw [stripPrefix_append] at hstrip
    cases hstrip
  | some suffix =>
    rw [(parse_wildcard hpattern hstrip).1, matches_wildcard, allowedHostMatches_wildcard hstrip, hnormal]
    constructor
    · rintro ⟨-, back⟩ before suffix' rfl rfl
      rw [stripPrefix_append, Option.some.injEq] at hstrip
      subst hstrip
      obtain ⟨label, hdot, hlabel⟩ := back ⟨before.toList, toList_under⟩
      rw [toList_under] at hlabel
      rwa [List.append_cancel_right hlabel]
    · intro h
      refine ⟨fun ⟨label, _, hlabel⟩ => ⟨label, hlabel⟩, ?_⟩
      rintro ⟨before, hbefore⟩
      refine ⟨before, ?_, hbefore⟩
      have hdot := h (String.ofList before) suffix
        (String.toList_inj.mp (by rw [stripPrefix_eq_some.mp hstrip, String.toList_append]))
        (String.toList_inj.mp (by rw [toList_under, String.toList_ofList, hbefore]))
      rwa [String.toList_ofList] at hdot

/-- The declared origins of an accepted manifest are reachable exactly if the host or its parent's wildcard is
listed; every accepted pattern lets some host through; and the verdicts on a pattern and a hostname are the
same exactly if no wildcard would have to stand for several labels. -/
theorem declared_origins_reachable (F : Formats) (address : AddressText F) :
    (∀ manifest root coreVersion pluginApiVersion,
      validateManifest F manifest root coreVersion pluginApiVersion = .ok () →
      ∀ declaration ∈ declared manifest, ∀ origin ∈ declaration.targetOrigins,
        ∃ url host, F.url origin = some url ∧ url.host = some host ∧
          ((AllowedHosts.fromManifest F manifest).allows host = true ↔
            Listed manifest (toAsciiLowercase host))) ∧ (∀ pattern, validAllowedHost F pattern = true →
      ∃ host, validHostname F host = true ∧ (HostPattern.parse F pattern).matches host = true) ∧
    ∀ pattern host, validAllowedHost F pattern = true → validHostname F host = true →
      ((HostPattern.parse F pattern).matches host = allowedHostMatches pattern host ↔
        ∀ before suffix : String, pattern = "*." ++ suffix → host = before ++ "." ++ suffix →
          '.' ∉ before.toList) := by
  refine ⟨?_, fun _ h => exists_matches address h, fun _ _ hp hh => same_verdict_iff hp hh⟩
  intro manifest root coreVersion pluginApiVersion h declaration hdeclaration origin horigin
  obtain ⟨hosts, origins⟩ := validateManifest_spec h
  obtain ⟨url, host, hurl, hhost, p, hp, hmatch⟩ := origins declaration hdeclaration origin horigin
  refine ⟨url, host, hurl, hhost, ?_⟩
  rw [allows_iff hosts, normalizeHost_of_matches (hosts p hp) hmatch]

/-! ## A manifest -/

/-- Dotted decimal, or anything with a colon. -/
def addressLike (text : String) : Bool :=
  text.toList.contains ':' || ((text.toList.splitOn '.').length = 4 &&
    (text.toList.splitOn '.').all fun part => part ≠ [] && part.length ≤ 3 && part.all Char.isDigit)

/-- Libraries that read `https` origins, decimal addresses and the version requirement `*`. -/
def sampleFormats : Formats where
  sha256 _ := []
  manifest _ := none
  index _ := none
  json _ := none
  url text := (stripPrefix "https://" text).map fun host => ⟨"https", some host, "", none, none, none, none⟩
  base64 _ := none
  versionReq text := if text = "*" then some fun _ => true else none
  ipAddr := addressLike
  readBack := some

theorem sampleFormats_address : AddressText sampleFormats := by
  intro text h
  simp only [sampleFormats, addressLike, Bool.or_eq_true, Bool.and_eq_true] at h
  obtain hcolon | ⟨-, hparts⟩ := h
  · exact .inl (List.contains_iff_mem.mp hcolon)
  · right
    intro c hc
    by_cases hdot : c = '.'
    · exact .inr hdot
    · obtain ⟨part, hp, hcp⟩ := mem_label hc hdot
      have hpart := List.all_eq_true.mp hparts part hp
      simp only [Bool.and_eq_true] at hpart
      exact .inl (List.all_eq_true.mp hpart.2 c hcp)

/-- A content plugin that needs a credential for one origin under `*.example.com`. -/
def sampleManifest (origin : String) : PluginManifest where
  schemaVersion := "1.0"
  id := "plugin"
  name := "Plugin"
  version := ⟨1, 0, 0, "", ""⟩
  pluginType := .content
  runtime := ⟨.nodejs, "22", "index.js"⟩
  compatibility := ⟨"*", "*"⟩
  platform := ⟨"example", "Example"⟩
  capabilities := ["content.search"]
  allowedHosts := ["*.example.com"]
  credentials := ⟨[], [⟨"example.login", [origin]⟩], []⟩
  npmLifecycleScripts := ⟨false, none⟩

def sampleRoot : Package.Tree := .dir [(.text "index.js" (by decide), .file [])]

/-- An accepted manifest whose declared origin is two labels below its wildcard, and out of reach. -/
theorem deep_origin_unreachable :
    validateManifest sampleFormats (sampleManifest "https://a.b.example.com") sampleRoot
        ⟨1, 0, 0, "", ""⟩ ⟨1, 0, 0, "", ""⟩ = .ok () ∧
      (sampleFormats.url "https://a.b.example.com").bind (·.host) = some "a.b.example.com" ∧
      validHostname sampleFormats "a.b.example.com" = true ∧
      allowedHostMatches "*.example.com" "a.b.example.com" = true ∧
      (AllowedHosts.fromManifest sampleFormats (sampleManifest "https://a.b.example.com")).allows
        "a.b.example.com" = false := by
  decide +kernel

/-- One label below, it is listed and reached. -/
theorem origin_reached : validateManifest sampleFormats (sampleManifest "https://a.example.com") sampleRoot
        ⟨1, 0, 0, "", ""⟩ ⟨1, 0, 0, "", ""⟩ = .ok () ∧
      ∃ url host, sampleFormats.url "https://a.example.com" = some url ∧ url.host = some host ∧
        (AllowedHosts.fromManifest sampleFormats (sampleManifest "https://a.example.com")).allows host = true := by
  have accepted : validateManifest sampleFormats (sampleManifest "https://a.example.com") sampleRoot
      ⟨1, 0, 0, "", ""⟩ ⟨1, 0, 0, "", ""⟩ = .ok () := by
    decide +kernel
  obtain ⟨url, host, hurl, hhost, reached⟩ :=
    (declared_origins_reachable sampleFormats sampleFormats_address).1 _ _ _ _ accepted
      ⟨"example.login", ["https://a.example.com"]⟩ List.mem_cons_self "https://a.example.com"
      List.mem_cons_self
  refine ⟨accepted, url, host, hurl, hhost, reached.mpr ?_⟩
  have parsed : stripPrefix "https://" "https://a.example.com" = some "a.example.com" := by decide +kernel
  obtain rfl : url = ⟨"https", some "a.example.com", "", none, none, none, none⟩ :=
    Option.some.inj (hurl.symm.trans (by simp only [sampleFormats, parsed, Option.map_some]))
  obtain rfl : host = "a.example.com" := (Option.some.inj hhost).symm
  exact .inr ⟨"a", "example.com", by decide +kernel, by decide +kernel, by decide +kernel⟩

end AudioDown.Proxy
