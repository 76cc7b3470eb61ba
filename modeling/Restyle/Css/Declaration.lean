import Restyle.Css.Body
import Restyle.Css.Rule

/-!
# Declarations

A declaration block is a row of chunks between the semicolons outside nested
blocks.  Comments may lead a chunk; what follows them is one declaration or, for
want of a property and a colon, a problem.  A chunk that cannot be read leaves
its neighbours as they are.
-/

namespace Restyle.Css

namespace Declaration

/-- What a property may be written with: identifiers, `*`, blocks in square brackets and white
space around them. -/
def isPropertyPart : Component → Bool
  | .leaf t => t.kind == .ident || t.kind == .whiteSpace ||
      (t.kind == .delimiter && t.text == ['*'])
  | .block opener _ _ => opener.kind == .opening .square

/-- The declaration that a row of components makes: a property without white space in it, a colon
and the value. -/
def ofComponents? (cs : List Component) : Option Declaration :=
  let property := Text.trim ((cs.takeWhile isPropertyPart).flatMap Component.text)
  match cs.dropWhile isPropertyPart with
  | [] => none
  | c :: value =>
    if c.isLeaf .colon && !property.isEmpty && !property.any Text.isBlank then
      some ⟨String.ofList property, Component.trimmedText value⟩
    else none

end Declaration

/-- Reads a comment of which `text` is the source.  One that is not closed is a problem. -/
def readComment (body text : List Char) (place : Location) : Reading (Option String) := do
  if Token.endsComment text then return some (String.ofList body)
  Reading.report .unclosedComment place
  return none

/-- Reads a chunk of a declaration block. -/
def readChunk : List Component → Reading (List DeclarationEntry)
  | [] => return []
  | c :: cs =>
    if c.isWhiteSpace then readChunk cs
    else if c.isComment then do
      let comment ← readComment (Token.commentBody c.text) c.text c.start
      ((comment.map DeclarationEntry.comment).toList ++ ·) <$> readChunk cs
    else match Declaration.ofComponents? (c :: cs) with
      | some declaration => return [.declaration declaration]
      | none => do
        Reading.report .noProperty c.start
        return []

def readChunks : List (List Component) → Reading (List DeclarationEntry)
  | [] => return []
  | chunk :: chunks => do
    let entries ← readChunk chunk
    (entries ++ ·) <$> readChunks chunks

/-- Reads a declaration block from its contents. -/
def readDeclarations (cs : List Component) : Reading (List DeclarationEntry) :=
  readChunks (Component.splitOn Component.isSemicolon cs)

end Restyle.Css
