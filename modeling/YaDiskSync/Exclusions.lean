import YaDiskSync.Models

/-! Exclusion rules. The pattern engine of the `ignore` crate and the Unicode
lowercase table are parameters; the code around them is modelled as written. -/
namespace YaDiskSync

inductive GlobMatch
  | none | ignore | whitelist
  deriving DecidableEq, Repr

/-- What the code uses of outside libraries: `GitignoreBuilder` and `str::to_lowercase`. -/
structure Externals where
  /-- the error text of `GitignoreBuilder::add_line`, if it rejects the rule -/
  addLineError : Str → Option Str
  /-- the error text of `GitignoreBuilder::build` -/
  buildError : List Str → Option Str
  /-- `Gitignore::matched_path_or_any_parents` for rules, path and directory flag -/
  matchedPathOrAnyParents : List Str → Str → Bool → GlobMatch
  toLowercase : Str → Str

/-- An instance for concrete ASCII inputs: rules are accepted and match nothing. -/
def asciiExternals : Externals :=
  ⟨fun _ => none,fun _ => none,fun _ _ _ => .none,List.map asciiLower⟩

structure InvalidRule where
  index : Nat
  message : Str
  deriving DecidableEq, Repr

inductive ExclusionReason
  | absolute | pattern | includedByNegation | notMatched
  deriving DecidableEq, Repr

/-- The derived `Debug` text of a reason. -/
def ExclusionReason.debug : ExclusionReason → Str
  | .absolute => "Absolute".toList
  | .pattern => "Pattern".toList
  | .includedByNegation => "IncludedByNegation".toList
  | .notMatched => "NotMatched".toList

structure ExclusionDecision where
  excluded : Bool
  reason : ExclusionReason
  deriving DecidableEq, Repr

structure ExclusionMatcher where
  rules : List Str
  absoluteExcludes : List Str
  deriving DecidableEq, Repr

def validateRule (rule : Str) (index : Nat) : Except InvalidRule Unit :=
  if (trim rule).isEmpty then .error ⟨index,"rule must not be empty".toList⟩
  else if rule.any isControl then
    .error ⟨index,"rule must not contain control characters".toList⟩
  else .ok ()

def isSeparator (c : Char) : Bool := c == slash || c == '\\'

def looksLikeWindowsPath : Str → Bool
  | c :: ':' :: _ => isAsciiAlphabetic c
  | _ => false

variable (ext : Externals)

def normalizeAbsolutePath (path : Str) : Str :=
  let normalized := trimEndMatches slash (replaceChar '\\' slash path)
  if looksLikeWindowsPath normalized then ext.toLowercase normalized else normalized

namespace ExclusionMatcher

def addRules : Nat → List Str → Except InvalidRule Unit
  | _, [] => .ok ()
  | index, rule :: rules => do
    validateRule rule index
    match ext.addLineError rule with
    | some message => .error ⟨index,message⟩
    | none => addRules (index+1) rules

def new (globalRules rootRules absoluteExcludes : List Str) :
    Except InvalidRule ExclusionMatcher := do
  let rules := globalRules ++ rootRules
  addRules ext 0 rules
  match ext.buildError rules with
  | some message => .error ⟨globalRules.length+rootRules.length,message⟩
  | none => .ok { rules, absoluteExcludes := absoluteExcludes.map (normalizeAbsolutePath ext) }

variable {ext} in
/-- The rules and the normalised paths of a matcher. -/
theorem new_ok {globalRules rootRules absoluteExcludes : List Str}
    {matcher : ExclusionMatcher}
    (h : new ext globalRules rootRules absoluteExcludes = .ok matcher) :
    matcher.rules = globalRules ++ rootRules ∧
      matcher.absoluteExcludes = absoluteExcludes.map (normalizeAbsolutePath ext) := by
  rw [new] at h
  cases hrules : addRules ext 0 (globalRules ++ rootRules) with
  | error error =>
    rw [hrules] at h
    cases h
  | ok _ =>
    rw [hrules] at h
    cases hbuild : ext.buildError (globalRules ++ rootRules) with
    | some message =>
      simp only [hbuild,Except.bind,bind] at h
      cases h
    | none =>
      simp only [hbuild,Except.bind,bind,Except.ok.injEq] at h
      subst h
      exact ⟨rfl,rfl⟩

def matchesAbsoluteExclude (matcher : ExclusionMatcher) (path : Str) : Bool :=
  let candidate := normalizeAbsolutePath ext (replaceChar '\\' slash path)
  matcher.absoluteExcludes.any fun excluded =>
    candidate == excluded ||
      (stripPrefix excluded candidate).any fun rest => rest.head? == some slash

def decisionForPath (matcher : ExclusionMatcher) (path : Str) (isDir : Bool) :
    ExclusionDecision :=
  if matcher.matchesAbsoluteExclude ext path then ⟨true,.absolute⟩
  else
    match ext.matchedPathOrAnyParents matcher.rules path isDir with
    | .ignore => ⟨true,.pattern⟩
    | .whitelist => ⟨false,.includedByNegation⟩
    | .none => ⟨false,.notMatched⟩

end ExclusionMatcher

end YaDiskSync
