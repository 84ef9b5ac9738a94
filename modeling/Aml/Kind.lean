import Aml.Text.Basic

/-!
# Token kinds

The language has three families of kinds: reserved words, operators with a fixed spelling, and
operands. Every kind has a canonical name and an index, its place in the declaration order that
runs through the families one after the other. An index outside that order stands for an
undeclared kind, which has no family.
-/
namespace Aml

/-- The kinds of reserved words. -/
inductive Reserved where
  | variableType | packetType | filterType | listType | disableComponent | deceiveComponent
  | destroyComponent | misplaceNode | destroyNode | writeField | readField | forwardPacket
  | createPacket | injectPacket | clonePacket | dropPacket | scenario | packets | every | nodes
  | fromNode | once | matching | forAll | inList | captured | self | tx | rx | microsecond
  | millisecond | second
  deriving DecidableEq

/-- The kinds of operators and punctuation. -/
inductive Operator where
  | addAssign | subAssign | mulAssign | divAssign | modAssign | notEqual | equal | greaterEqual
  | lessEqual | greater | less | assign | add | sub | mul | div | mod | exp | land | lor
  | leftRound | rightRound | leftBracket | rightBracket | leftCurly | rightCurly | comma
  deriving DecidableEq

/-- The kinds of names and literals. -/
inductive Operand where
  | identifier | integer | real | string
  deriving DecidableEq

namespace Reserved

/-- All reserved kinds in declaration order. -/
def all : List Reserved :=
  [.variableType, .packetType, .filterType, .listType, .disableComponent, .deceiveComponent,
   .destroyComponent, .misplaceNode, .destroyNode, .writeField, .readField, .forwardPacket,
   .createPacket, .injectPacket, .clonePacket, .dropPacket, .scenario, .packets, .every, .nodes,
   .fromNode, .once, .matching, .forAll, .inList, .captured, .self, .tx, .rx, .microsecond,
   .millisecond, .second]

/-- The canonical name of a reserved kind. -/
def name : Reserved → String
  | .variableType => "VARIABLE"
  | .packetType => "PACKET"
  | .filterType => "FILTER"
  | .listType => "LIST"
  | .disableComponent => "DISABLE_COMPONENT"
  | .deceiveComponent => "DECEIVE_COMPONENT"
  | .destroyComponent => "DESTROY_COMPONENT"
  | .misplaceNode => "MISPLACE_NODE"
  | .destroyNode => "DESTROY_NODE"
  | .writeField => "WRITE_FIELD"
  | .readField => "READ_FIELD"
  | .forwardPacket => "FORWARD_PACKET"
  | .createPacket => "CREATE_PACKET"
  | .injectPacket => "INJECT_PACKET"
  | .clonePacket => "CLONE_PACKET"
  | .dropPacket => "DROP_PACKET"
  | .scenario => "SCENARIO"
  | .packets => "PACKETS"
  | .every => "EVERY"
  | .nodes => "NODES"
  | .fromNode => "FROM"
  | .once => "ONCE"
  | .matching => "MATCHING"
  | .forAll => "FOR"
  | .inList => "IN"
  | .captured => "CAPTURED"
  | .self => "SELF"
  | .tx => "TX"
  | .rx => "RX"
  | .microsecond => "US"
  | .millisecond => "MS"
  | .second => "S"

end Reserved

namespace Operator

/-- All operators in declaration order. -/
def all : List Operator :=
  [.addAssign, .subAssign, .mulAssign, .divAssign, .modAssign, .notEqual, .equal, .greaterEqual,
   .lessEqual, .greater, .less, .assign, .add, .sub, .mul, .div, .mod, .exp, .land, .lor,
   .leftRound, .rightRound, .leftBracket, .rightBracket, .leftCurly, .rightCurly, .comma]

/-- The canonical name of an operator. -/
def name : Operator → String
  | .addAssign => "ADD_ASSIGN"
  | .subAssign => "SUB_ASSIGN"
  | .mulAssign => "MUL_ASSIGN"
  | .divAssign => "DIV_ASSIGN"
  | .modAssign => "MOD_ASSIGN"
  | .notEqual => "NOT_EQUAL_TO"
  | .equal => "EQUAL_TO"
  | .greaterEqual => "GREATER_EQUAL"
  | .lessEqual => "LESS_EQUAL"
  | .greater => "GREATER"
  | .less => "LESS"
  | .assign => "ASSIGN"
  | .add => "ADD"
  | .sub => "SUB"
  | .mul => "MUL"
  | .div => "DIV"
  | .mod => "MOD"
  | .exp => "EXP"
  | .land => "LAND"
  | .lor => "LOR"
  | .leftRound => "LEFT_ROUND"
  | .rightRound => "RIGHT_ROUND"
  | .leftBracket => "LEFT_BRACKET"
  | .rightBracket => "RIGHT_BRACKET"
  | .leftCurly => "LEFT_CURLY"
  | .rightCurly => "RIGHT_CURLY"
  | .comma => "COMMA"

/-- The fixed spelling of an operator. -/
def spelling : Operator → String
  | .addAssign => "+="
  | .subAssign => "-="
  | .mulAssign => "*="
  | .divAssign => "/="
  | .modAssign => "%="
  | .notEqual => "!="
  | .equal => "=="
  | .greaterEqual => ">="
  | .lessEqual => "<="
  | .greater => ">"
  | .less => "<"
  | .assign => "="
  | .add => "+"
  | .sub => "-"
  | .mul => "*"
  | .div => "/"
  | .mod => "%"
  | .exp => "**"
  | .land => "&&"
  | .lor => "||"
  | .leftRound => "("
  | .rightRound => ")"
  | .leftBracket => "["
  | .rightBracket => "]"
  | .leftCurly => "\x7b"
  | .rightCurly => "\x7d"
  | .comma => ","

end Operator

namespace Operand

/-- All operand kinds in declaration order. -/
def all : List Operand :=
  [.identifier, .integer, .real, .string]

/-- The canonical name of an operand kind. -/
def name : Operand → String
  | .identifier => "IDENTIFIER"
  | .integer => "INTEGER"
  | .real => "REAL"
  | .string => "STRING"

end Operand

/-- The families of kinds. -/
inductive Family where
  | reserved | operator | operand
  deriving DecidableEq

namespace Family

/-- All families in declaration order. -/
def all : List Family :=
  [.reserved, .operator, .operand]

/-- The name of a family. -/
def name : Family → String
  | .reserved => "reserved"
  | .operator => "operator"
  | .operand => "operand"

/-- The name of the family with an index, or the index itself when there is none. -/
def nameOfIndex : Int → Text
  | .ofNat index =>
    match all[index]? with
    | some family => family.name
    | none => "Family(" ++ Text.ofNat index ++ ")"
  | index => "Family(" ++ Text.ofInt index ++ ")"

end Family

/-- A token kind: a declared kind of one family, or an index outside the declaration order. -/
inductive Kind where
  | reserved (kind : Reserved)
  | operator (kind : Operator)
  | operand (kind : Operand)
  | undeclared (index : Int)
  deriving DecidableEq

/-- The fault of asking for the family of an undeclared kind. -/
structure UndeclaredKind where
  /-- The index that names no kind. -/
  index : Int

/-- The message of the fault. -/
def UndeclaredKind.message (fault : UndeclaredKind) : Text :=
  "token: undeclared kind " ++ Text.ofInt fault.index

namespace Kind

/-- All declared kinds in declaration order. -/
def all : List Kind :=
  Reserved.all.map .reserved ++ Operator.all.map .operator ++ Operand.all.map .operand

/-- The place of a kind in the declaration order. -/
def index : Kind → Int
  | .undeclared index => index
  | kind => all.idxOf kind

/-- The kind at a place of the declaration order. -/
def ofIndex (index : Int) : Kind :=
  match index with
  | .ofNat place => all[place]?.getD (.undeclared index)
  | .negSucc _ => .undeclared index

/-- The first kind of the declaration order. -/
def first : Kind := .reserved .variableType

/-- Whether a kind is declared. -/
def isDeclared : Kind → Bool
  | .undeclared _ => false
  | _ => true

/-- Whether a kind is reserved for words of the keyword table. -/
def isReserved : Kind → Bool
  | .reserved _ => true
  | _ => false

/-- Whether a kind is an operator. -/
def isOperator : Kind → Bool
  | .operator _ => true
  | _ => false

/-- Whether a kind is a name or a literal. -/
def isOperand : Kind → Bool
  | .operand _ => true
  | _ => false

/-- The family of a declared kind. -/
def family : Kind → Except UndeclaredKind Family
  | .reserved _ => .ok .reserved
  | .operator _ => .ok .operator
  | .operand _ => .ok .operand
  | .undeclared index => .error ⟨index⟩

/-- The canonical name of a declared kind, or the index of an undeclared one. -/
def name : Kind → Text
  | .reserved kind => kind.name
  | .operator kind => kind.name
  | .operand kind => kind.name
  | .undeclared index => "Kind(" ++ Text.ofInt index ++ ")"

/-- The fixed spelling of an operator, and nothing for any other kind. -/
def spelling : Kind → Text
  | .operator kind => kind.spelling
  | _ => []

/-- The declared kind with a canonical name. -/
def ofName? (name : Text) : Option Kind :=
  all.find? fun kind => kind.name = name

end Kind

end Aml
