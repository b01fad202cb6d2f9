/-!
# Built-in examples

Programs to try the debugger on.
-/

namespace ScriptDebugger

inductive Example where
  | sumLoop | sumReduce | fibonacci | square
  /-- Loaded when a page is opened. -/
  | error
  deriving DecidableEq, Repr, Inhabited

namespace Example

def all : List Example := [sumLoop, sumReduce, fibonacci, square, error]

def name : Example → String
  | sumLoop => "sumLoop"
  | sumReduce => "sumReduce"
  | fibonacci => "fibonacci"
  | square => "square"
  | error => "error"

/-- The lines of an example's text. -/
def sourceLines : Example → List String
  | sumLoop => [
      "var array = [0, 1, 2, 3, 4, 5],",
      "    sum = 0;",
      "",
      "for (var i = 0; i < array.length; i++)",
      "  sum += array[i];"]
  | sumReduce => [
      "var array = [0, 1, 2, 3, 4, 5];",
      "var sum = array.reduce(function(acc,  n) \x7b",
      "  return acc + n;",
      "\x7d);"]
  | fibonacci => [
      "function fibo(n) \x7b",
      "  if (n <= 1)",
      "    return n;",
      "  return fibo(n - 1) + fibo(n - 2);",
      "\x7d",
      "",
      "var fib6 = fibo(6);"]
  | square => [
      "var a = 1;",
      "var b = 2;",
      "",
      "function square(a) \x7b",
      "  var sq = a * a;",
      "  return sq;",
      "\x7d",
      "",
      "var s = square(b);"]
  | error => [
      "var x = 1;",
      "for (var i = 0; i < 5; i++) \x7b",
      "  y += 1; // y is not defined => Error here",
      "  if (i == 3)",
      "    debugger;",
      "  x += i;",
      "\x7d"]

def source (e : Example) : String := String.intercalate "\n" e.sourceLines

def ofName? (name : String) : Option Example := all.find? fun e => e.name == name

/-- The names of the examples, in order. -/
def names : String := String.intercalate ", " (all.map Example.name)

/-- What to say of a name that no example has. -/
def unknown (name : String) : String := s!"unknown example `{name}`"

end Example

end ScriptDebugger
