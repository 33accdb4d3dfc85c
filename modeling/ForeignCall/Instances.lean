/-!
# ForeignCall.Instances

The operations that the definitions of this library are read with: the power of two numbers and the
order of texts. A larger library brings others that agree with them; these stay in force, so that a
definition is the same term whatever is in scope.
-/

attribute [instance(high), default_instance high + 1] instPowNat

attribute [instance(high)] List.instLE List.decidableLE
