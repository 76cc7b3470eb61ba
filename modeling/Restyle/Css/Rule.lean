/-!
# Rules

A style sheet is a list of rules.  Selectors, preludes and values keep the text
they were written with.  Comments are nodes of their own at every level:
between rules, among declarations and among keyframes.
-/

namespace Restyle.Css

structure Declaration where
  property : String
  value : String
  deriving Repr, DecidableEq

inductive DeclarationEntry where
  | declaration (declaration : Declaration)
  | comment (text : String)
  deriving Repr, DecidableEq

/-- A keyframe: the moments it describes and its declarations. -/
structure Frame where
  moments : List String
  declarations : List DeclarationEntry
  deriving Repr, DecidableEq

inductive FrameEntry where
  | frame (frame : Frame)
  | comment (text : String)
  deriving Repr, DecidableEq

/-- The head of a rule that groups other rules. -/
inductive Group where
  | media (query : String)
  | supports (condition : String)
  | document (matcher : String) (vendor : Option String)
  | host
  deriving Repr, DecidableEq

/-- At-rules that are one statement without a block. -/
inductive Directive where
  /-- The rule `@import`. -/
  | inclusion
  /-- The rule `@charset`. -/
  | charset
  /-- The rule `@namespace`. -/
  | vocabulary
  deriving Repr, DecidableEq

/-- A rule at the top of a style sheet or inside a group. -/
inductive Rule where
  | style (selectors : List String) (declarations : List DeclarationEntry)
  | comment (text : String)
  | group (head : Group) (rules : List Rule)
  | keyframes (name : String) (vendor : Option String) (frames : List FrameEntry)
  | fontFace (declarations : List DeclarationEntry)
  | page (selectors : List String) (declarations : List DeclarationEntry)
  | customMedia (name : String) (query : String)
  | directive (directive : Directive) (text : String)
  deriving Repr

mutual

/-- Whether two rules are the same: of one kind, and alike in every part. -/
def Rule.decEq (r r' : Rule) : Decidable (r = r') :=
  if h : r.ctorIdx = r'.ctorIdx then
    match r, r', h with
    | .style _ _, .style _ _, _ => decidable_of_iff (_ ∧ _) (Rule.style.injEq ..).to_iff.symm
    | .comment _, .comment _, _ => decidable_of_iff _ (Rule.comment.injEq ..).to_iff.symm
    | .group _ rules, .group _ rules', _ =>
      have := Rule.decEqOf rules rules'
      decidable_of_iff (_ ∧ _) (Rule.group.injEq ..).to_iff.symm
    | .keyframes _ _ _, .keyframes _ _ _, _ =>
      decidable_of_iff (_ ∧ _ ∧ _) (Rule.keyframes.injEq ..).to_iff.symm
    | .fontFace _, .fontFace _, _ => decidable_of_iff _ (Rule.fontFace.injEq ..).to_iff.symm
    | .page _ _, .page _ _, _ => decidable_of_iff (_ ∧ _) (Rule.page.injEq ..).to_iff.symm
    | .customMedia _ _, .customMedia _ _, _ =>
      decidable_of_iff (_ ∧ _) (Rule.customMedia.injEq ..).to_iff.symm
    | .directive _ _, .directive _ _, _ =>
      decidable_of_iff (_ ∧ _) (Rule.directive.injEq ..).to_iff.symm
  else isFalse fun heq => h (congrArg Rule.ctorIdx heq)

def Rule.decEqOf : (rs rs' : List Rule) → Decidable (rs = rs')
  | [], [] => isTrue rfl
  | r :: rs, r' :: rs' =>
    have := Rule.decEq r r'
    have := Rule.decEqOf rs rs'
    decidable_of_iff (r = r' ∧ rs = rs') (by simp)
  | [], _ :: _ => isFalse nofun
  | _ :: _, [] => isFalse nofun

end

instance : DecidableEq Rule := Rule.decEq

def Directive.keyword : Directive → String
  | .inclusion => "import"
  | .charset => "charset"
  | .vocabulary => "namespace"

def Group.keyword : Group → String
  | .media _ => "media"
  | .supports _ => "supports"
  | .document _ _ => "document"
  | .host => "host"

/-- The short name of the kind of a rule. -/
def Rule.kind : Rule → String
  | .style _ _ => "rule"
  | .comment _ => "comment"
  | .group head _ => head.keyword
  | .keyframes _ _ _ => "keyframes"
  | .fontFace _ => "font-face"
  | .page _ _ => "page"
  | .customMedia _ _ => "custom-media"
  | .directive d _ => d.keyword

end Restyle.Css
