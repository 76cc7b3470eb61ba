import Restyle.Css.Declaration

/-!
# Keyframes

A block of keyframes holds frames: a list of moments, such as `from` or
`0%, 50%`, and a declaration block.
-/

namespace Restyle.Css

/-- Reads a frame from its moments and its body.  A frame without a block has no declarations. -/
def readFrame (moments : List String) (body : Body) : Reading Frame := do
  let declarations ← body.read .plain (readDeclarations body.contents)
  return ⟨moments, declarations.getD []⟩

/-- Reads the frames of a level that ends at `stop`. -/
def readFrames (stop : Location) (skipped : Option Skipped) :
    List Component → Reading (List FrameEntry)
  | [] => return []
  | c :: cs =>
    if c.isWhiteSpace || c.isSemicolon then readFrames stop none cs
    else if c.isComment then do
      let comment ← readComment (Token.commentBody c.text) (Skipped.textOf skipped c)
        (Skipped.startOf skipped c)
      ((comment.map FrameEntry.comment).toList ++ ·) <$> readFrames stop none cs
    else
      let moments := selectorsOf skipped (Component.untilCurly (c :: cs))
      if _hc : c.isCurly || moments.all (· == "") then do
        Reading.report .noSelector (Skipped.startOf skipped c)
        let next := Skipped.ofLevel (Component.fromCurly (c :: cs))
        readFrames stop next.1 next.2
      else do
        let next := Body.ofLevel stop (Component.fromCurly (c :: cs))
        let frame ← readFrame moments next.1
        (.frame frame :: ·) <$> readFrames stop none next.2
termination_by cs => Component.tokenCount cs
decreasing_by
  · exact Component.tokenCount_lt_cons c cs
  · exact Component.tokenCount_lt_cons c cs
  · exact Skipped.tokenCount_ofLevel_fromCurly_lt c cs
  · simp only [Bool.or_eq_true, not_or, Bool.not_eq_true] at _hc
    have := Component.tokenCount_fromCurly_lt _hc.1 cs
    have := Body.tokenCount_ofLevel stop (Component.fromCurly (c :: cs))
    omega

end Restyle.Css
