import LoopLowering.Diagnostic
import LoopLowering.Machine.Value

/-!
How running code ends other than normally: jumps, exceptions, errors of the program and faults.
-/

namespace LoopLowering.Machine

inductive RunError where
  | stepLimit (limit : Int)
  | methodNotFound (name : String)
  | uncaught (text : String)
  | constructorNotFound (className : String) (count : Nat)
  | thisConstructorNotFound
  | unknownName (name : String)
  | undeclared (name : String)
  | notBoolean
  | notIterable
  | localClass
  | badStatement (kind : String)
  | badExpression (kind : String)
  | badTarget
  | badFieldTarget (name : String)
  | unknownUnary (symbol : String)
  | unknownBinary (symbol : String)
  | unknownClass (name : String)
  | unknownStaticField (className name : String)
  | unknownField (name : String)
  | unknownMethod (name : String)
  | unknownMethodOf (owner name : String)
  | arrayMethod (name : String)
  deriving DecidableEq, Repr

def RunError.message : RunError → String
  | stepLimit n => "limite de " ++ toString n ++ " passos excedido"
  | methodNotFound m => "método '" ++ m ++ "' não encontrado"
  | uncaught t => "exceção não apanhada: " ++ t
  | constructorNotFound c n =>
    "construtor de " ++ c ++ " com " ++ toString n ++ " argumento(s) não encontrado"
  | thisConstructorNotFound => "construtor this(...) não encontrado"
  | unknownName n => "nome desconhecido '" ++ n ++ "'"
  | undeclared n => "variável não declarada '" ++ n ++ "'"
  | notBoolean => "condição não booleana"
  | notIterable => "for-each sobre valor não iterável"
  | localClass => "classes locais não suportadas"
  | badStatement k => "Statement não suportado: " ++ k
  | badExpression k => "Expressão não suportada: " ++ k
  | badTarget => "destino de atribuição inválido"
  | badFieldTarget n => "não é possível atribuir ao campo '" ++ n ++ "'"
  | unknownUnary s => "operador unário desconhecido " ++ s
  | unknownBinary s => "operador desconhecido " ++ s
  | unknownClass c => "classe desconhecida '" ++ c ++ "'"
  | unknownStaticField c n => "campo estático desconhecido " ++ c ++ "." ++ n
  | unknownField n => "campo desconhecido '" ++ n ++ "'"
  | unknownMethod m => "método desconhecido '" ++ m ++ "'"
  | unknownMethodOf o m => "método desconhecido " ++ o ++ "." ++ m
  | arrayMethod m => "método '" ++ m ++ "' não existe em arrays"

def RunError.diagnostic (e : RunError) : Diagnostic := { message := e.message }

inductive Signal where
  | breakTo (label : Option String)
  | continueTo (label : Option String)
  | returned (v : Value)
  | thrown (v : Value)
  | failed (e : RunError)
  | fault (f : Fault)
  /-- Evaluation nests deeper than its bound, or goes round in a cycle of objects. -/
  | exhausted

end LoopLowering.Machine
