import Reflow.Pattern.Reader

/-!
# Markers of comments

What stands around the words of a comment: the leader of a line, such as `//` or `*`, and tags that
break paragraphs.  `Markers` holds the three patterns that are made of a leader: the indent of a
line, the wordless line between two paragraphs, and the line that is nothing but an indent.
-/

namespace Reflow

/-- The character that stands in for a column of a tab while a text is wrapped. -/
def tabMark : Char := '☃'

/-- The written pattern of the leaders in source code. -/
def codeLeader : Text :=
  "(/\\*+|\\*/|\\*|\\.|#+|//+|;+|--)?".toList

/-- The written pattern of the leaders in prose. -/
def proseLeader : Text :=
  "(//)?".toList

/-- The written pattern of the tags that break a paragraph. -/
def tagNotation : Text :=
  "<[pP]>|<[bB][rR] ?/?>".toList

namespace Pattern

/-- The leaders in source code: the ends of block comments, bullets, and the marks of line comments,
or none of these. -/
def codeLeaders : Pattern :=
  optional true (choice
    [seq (char '/') (oneOrMore true (char '*')), literal ['*', '/'], char '*', char '.',
      oneOrMore true (char '#'), seq (char '/') (oneOrMore true (char '/')),
      oneOrMore true (char ';'), literal ['-', '-']])

/-- The leader in prose, or none. -/
def proseLeaders : Pattern :=
  optional true (literal ['/', '/'])

/-- A character that is one of two. -/
def either (c d : Char) : Pattern :=
  one fun x => x = c || x = d

/-- A tag that breaks a paragraph: `<p>`, `<br>`, `<br/>` or `<br />` in any letter case. -/
def tag : Pattern :=
  choice
    [row [char '<', either 'p' 'P', char '>'],
      row [char '<', either 'b' 'B', either 'r' 'R', optional true (char ' '),
        optional true (char '/'), char '>']]

def blanks : Pattern :=
  zeroOrMore true (one isBlank)

/-- Any amount of white space and of tabs that are spelled out. -/
def filler : Pattern :=
  zeroOrMore true (one fun c => isBlank c || c = tabMark)

/-- A line feed, perhaps after a carriage return. -/
def lineBreak : Pattern :=
  seq (optional true (char '\r')) (char '\n')

/-- What marks a line after its first blanks: a leader, white space and perhaps a tag. -/
def marks (leader : Pattern) : Pattern :=
  row [leader, blanks, optional true tag]

end Pattern

/-- The patterns that find the comments in a text. -/
structure Markers where
  /-- What comes before the words of a line. -/
  indent : Pattern
  /-- A line without words, with the line breaks around it. -/
  separator : Pattern
  /-- A line that is nothing but an indent. -/
  bareLine : Pattern

namespace Markers

open Pattern (row)

def ofLeader (leader : Pattern) : Markers where
  indent := row [.look fun before _ => Pattern.isEdge before, .filler, .marks leader]
  separator := row [.lineBreak, .blanks, .marks leader, .lineBreak]
  bareLine :=
    row [.look (Pattern.isLineStart true), .filler, .marks leader, .look (Pattern.isLineEnd true)]

def code : Markers := ofLeader .codeLeaders

def prose : Markers := ofLeader .proseLeaders

/-- The written pattern of an indent with the given leader. -/
def indentNotation (leader : Text) : Text :=
  "^(\\s|☃)*".toList ++ leader ++ "\\s*(".toList ++ tagNotation ++ ")?".toList

/-- The written pattern of a wordless line with the given leader. -/
def separatorNotation (leader : Text) : Text :=
  "(\\r?\\n)\\s*".toList ++ leader ++ "\\s*(".toList ++ tagNotation ++ ")?(\\r?\\n)".toList

/-- The patterns for a leader that is given in writing.  The leader is pasted into the written
patterns, so that its alternatives reach past it unless it is a group. -/
def read? (leader : Text) : Option Markers :=
  if leader = codeLeader then some code
  else if leader = proseLeader then some prose
  else do
    let indent := indentNotation leader
    return {
      separator := ← Pattern.read? (separatorNotation leader)
      bareLine := ← Pattern.read? ("(?mR)".toList ++ indent ++ ['$'])
      indent := ← Pattern.read? indent }

end Markers

end Reflow
